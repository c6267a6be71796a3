import OnDemand.Proofs.Catalog.Patching
import OnDemand.Proofs.Reconcile.Placing

/-!
# Files that become directories

A difference looks at the kind of the newer entry alone. Of a file that a directory replaces it says nothing, and the
placeholder stays what it was; of a directory that a file replaces it says so unless key, size and time happen to agree.
-/

namespace OnDemand

namespace Catalog

variable {older newer : Catalog} {old new : Entry} {l : List Entry} {p : String}

/-- The difference says of `path` that it has changed, or that it went and came anew. -/
def Diff.Reports (d : Catalog.Diff) (path : String) : Prop :=
  (∃ e ∈ d.changed, e.path = path) ∨ (path ∈ d.removed ∧ ∃ e ∈ d.added, e.path = path)

instance (d : Catalog.Diff) (path : String) : Decidable (d.Reports path) :=
  inferInstanceAs (Decidable ((∃ e ∈ d.changed, e.path = path) ∨ (path ∈ d.removed ∧ ∃ e ∈ d.added, e.path = path)))

/-- A path of both catalogs is reported exactly if the newer entry is a file with other contents than the older one. -/
theorem reports_iff (hnewer : newer.Keyed) (hold : older.get? p = some old) (hnew : newer.get? p = some new) :
    (older.diff newer).Reports p ↔ new.directory = false ∧ old.differs new = true := by
  have hkept : p ∉ (older.diff newer).removed := fun hremoved => by
    rw [(mem_removed.1 hremoved).2] at hnew
    cases hnew
  constructor
  · rintro (⟨e, he, rfl⟩ | ⟨hremoved, -⟩)
    · obtain ⟨hmem, old', hold', hfile, hdiffers⟩ := mem_changed.1 he
      obtain rfl := Option.some.inj (hold'.symm.trans hold)
      obtain rfl := Option.some.inj ((hnewer.mem_toList.1 hmem).symm.trans hnew)
      exact ⟨hfile, hdiffers⟩
    · exact absurd hremoved hkept
  · rintro ⟨hfile, hdiffers⟩
    have hpath := hnewer p new hnew
    exact .inl ⟨new, mem_changed.2 ⟨mem_toList.2 ⟨p, hnew⟩, old, by rw [hpath, hold], hfile, hdiffers⟩, hpath⟩

theorem differs_iff : old.differs new = true ↔ old.object ≠ new.object ∨ old.size ≠ new.size ∨ old.mtime ≠ new.mtime := by
  simp [Entry.differs, or_assoc]

/-- A directory in a catalog of files is implied by the first of them below it. -/
theorem exists_firstBelow?_of_directory (hfiles : ∀ e ∈ l, e.directory = false) (hold : (ofList l).get? p = some old)
    (hdirectory : old.directory = true) : ∃ f, firstBelow? l p = some f ∧ old = .impliedDirectory p f.mtime := by
  rw [get?_ofList] at hold
  rcases Option.or_eq_some_iff.1 hold with hlast | ⟨-, himplied⟩
  · rw [hfiles old (mem_of_last? hlast).1] at hdirectory
    cases hdirectory
  · obtain ⟨f, hf, rfl⟩ := Option.map_eq_some_iff.1 himplied
    exact ⟨f, hf, rfl⟩

end Catalog

namespace Reconcile

open Catalog (ofList)

variable {older newer : Catalog} {new : Entry} {p : String}

/-- No errand of a difference is for a path of both catalogs that it does not report. -/
theorem path_ne_of_not_reports (hnew : older.get? p = some new) (h : ¬(older.diff newer).Reports p) {x : Errand}
    (hx : x ∈ errands (older.diff newer)) : x.entry.path ≠ p := by
  rintro rfl
  rcases mem_errands.1 hx with ⟨-, hadded⟩ | ⟨-, hchanged⟩
  · rw [(Catalog.mem_added.1 hadded).2] at hnew
    cases hnew
  · exact h (.inl ⟨x.entry, hchanged, rfl⟩)

/-- When a path changes its kind, the difference reports it exactly if the newer entry is a file with another key, size or
time. In catalogs of files, one that replaces a directory is passed over if its key is that of the directory, its size is
zero and its time is that of the first file that was below. What is not reported keeps its placeholder as it was. -/
theorem kind_change_reported_iff {first second : List Entry} {old : Entry} (hold : (ofList first).get? p = some old)
    (hnew : (ofList second).get? p = some new) (hkind : old.directory ≠ new.directory) :
    (((ofList first).diff (ofList second)).Reports p ↔
      new.directory = false ∧ (old.object ≠ new.object ∨ old.size ≠ new.size ∨ old.mtime ≠ new.mtime)) ∧
    ((∀ e ∈ first, e.directory = false) → new.directory = false →
      (¬((ofList first).diff (ofList second)).Reports p ↔ new.object = p ++ "/" ∧ new.size = 0 ∧
        (first.find? (Entry.IsAncestor p ·.path)).map (·.mtime) = some new.mtime)) ∧
    (¬((ofList first).diff (ofList second)).Reports p →
      ∀ {σ : Type} [CloudFacility σ] (table : σ → Table Route Placeholder), CloudFacility.Keeps table →
        (∀ e ∈ second, Entry.IsPlain e.path) → ∀ (root : Path) (b : Bridge σ),
          (table (run root ((ofList first).diff (ofList second)) b).2.facility).get? (Entry.place root p) =
            (table b.facility).get? (Entry.place root p)) := by
  have hreports := Catalog.reports_iff (Catalog.keyed_ofList second) hold hnew
  rw [Catalog.differs_iff] at hreports
  refine ⟨hreports, fun hfiles hfile => ?_, fun hpassed σ _ table hkeeps hplain root b => ?_⟩
  · have hdirectory : old.directory = true := by simpa [hfile] using hkind
    obtain ⟨f, hf, rfl⟩ := Catalog.exists_firstBelow?_of_directory hfiles hold hdirectory
    rw [Catalog.firstBelow?_eq] at hf
    rw [hreports, hf]
    simp [Entry.impliedDirectory, hfile, eq_comm]
  · rw [run_eq]
    refine get?_carryOut_of_ne hkeeps fun x hx hroute => path_ne_of_not_reports hold hpassed hx ?_
    have hx := (Catalog.keyed_ofList second).mem_toList.1 (entry_mem_of_mem_errands hx)
    rw [Entry.route_pathIn root (Catalog.isPlain_of_get? hplain hx)] at hroute
    exact (Entry.place_injective hroute).symm

/-- The placeholder of a file that has become a directory is left as it is. -/
theorem kind_change_reported_iff_replaced :
    let file : List Entry := [⟨"a", "o", 1, 1, false⟩]
    let below : List Entry := [⟨"a/b", "o", 1, 1, false⟩]
    (ofList file).get? "a" = some ⟨"a", "o", 1, 1, false⟩ ∧ (ofList below).get? "a" = some ⟨"a", "a/", 0, 1, true⟩ ∧
      ¬((ofList file).diff (ofList below)).Reports "a" ∧
      ∀ (root : Path) (b : Bridge Facility),
        (run root ((ofList file).diff (ofList below)) b).2.facility.placeholders.get? (Entry.place root "a") =
          b.facility.placeholders.get? (Entry.place root "a") := by
  intro file below
  have hold : (ofList file).get? "a" = some ⟨"a", "o", 1, 1, false⟩ := by decide +kernel
  have hnew : (ofList below).get? "a" = some ⟨"a", "a/", 0, 1, true⟩ := by decide +kernel
  obtain ⟨hreports, -, hkept⟩ := kind_change_reported_iff hold hnew (by decide)
  have hpassed : ¬((ofList file).diff (ofList below)).Reports "a" := fun h => nomatch (hreports.1 h).1
  exact ⟨hold, hnew, hpassed, hkept hpassed _ Facility.keeps (by decide +kernel)⟩

/-- Neither a file that becomes a directory nor the reverse has to be reported. -/
theorem kind_change_passed_over :
    let file : Catalog := .ofList [⟨"a", "a/", 0, 1, false⟩]
    let directory : Catalog := .ofList [⟨"a/b", "o", 1, 1, false⟩]
    (file.get? "a").map (·.directory) = some false ∧ (directory.get? "a").map (·.directory) = some true ∧
      ¬(file.diff directory).Reports "a" ∧ ¬(directory.diff file).Reports "a" := by
  decide +kernel

end Reconcile

end OnDemand
