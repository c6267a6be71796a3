import OnDemand.Filetime
import OnDemand.Proofs.Catalog.Closure

/-!
# Catalogs that agree on what is a directory

Catalogs made of files that a facility can hold agree on what is a directory, as long as none of the files is an
ancestor of an entry anywhere in the sequence.
-/

namespace OnDemand

/-- A file that the facility can hold, together with the directories that it implies. -/
structure Entry.Storable (e : Entry) : Prop where
  file : e.directory = false
  plain : IsPlain e.path
  size : Word.fitsSigned e.size = true
  object : (FileIdentity.ofText e.object).fits = true
  implied : ∀ a ∈ ancestors e.path, (FileIdentity.ofText (a ++ "/")).fits = true
  mtime : e.mtime ≠ -Filetime.epochDelta

theorem Entry.storable_iff {e : Entry} :
    e.Storable ↔ (e.directory = false ∧ IsPlain e.path) ∧
      (Word.fitsSigned e.size = true ∧ (FileIdentity.ofText e.object).fits = true) ∧
      (∀ a ∈ ancestors e.path, (FileIdentity.ofText (a ++ "/")).fits = true) ∧ e.mtime ≠ -Filetime.epochDelta :=
  ⟨fun h => ⟨⟨h.file, h.plain⟩, ⟨h.size, h.object⟩, h.implied, h.mtime⟩,
    fun ⟨⟨hfile, hplain⟩, ⟨hsize, hobject⟩, himplied, hmtime⟩ => ⟨hfile, hplain, hsize, hobject, himplied, hmtime⟩⟩

instance (e : Entry) : Decidable e.Storable := decidable_of_iff' _ Entry.storable_iff

namespace Catalog

variable {c : Catalog} {e : Entry} {l : List Entry} {D : String → Prop} {p : String}

/-- No path is a file in one of the catalogs and an ancestor of an entry in one of them. -/
def KindsAgree (catalogs : List Catalog) : Prop :=
  ∀ c ∈ catalogs, ∀ e ∈ c.toList, e.directory = false → ∀ c' ∈ catalogs, ∀ e' ∈ c'.toList,
    e.path ∉ Entry.ancestors e'.path

instance (catalogs : List Catalog) : Decidable (KindsAgree catalogs) :=
  inferInstanceAs (Decidable (∀ c ∈ catalogs, ∀ e ∈ c.toList, _ → ∀ c' ∈ catalogs, ∀ e' ∈ c'.toList, _))

/-- Entries stand at their own plain paths, and the directories are those at paths in `D`. -/
structure Shaped (D : String → Prop) (c : Catalog) : Prop where
  keyed : c.Keyed
  plain : ∀ {p e}, c.get? p = some e → Entry.IsPlain p
  kind : ∀ {p e}, c.get? p = some e → (e.directory = true ↔ D p)

/-- Every entry fits the facility and has the directory above it. -/
structure Regular (D : String → Prop) (c : Catalog) : Prop extends Shaped D c where
  parent : ∀ {p e}, c.get? p = some e → e.parent ≠ "" → ∃ d, c.get? e.parent = some d ∧ d.directory = true
  fits : ∀ {p e}, c.get? p = some e → Bridge.fitsFacility (.ofText e.object) e.size = true
  dated : ∀ {p e}, c.get? p = some e → e.directory = false → e.mtime ≠ -Filetime.epochDelta

theorem regular_empty (D : String → Prop) : Regular D empty where
  keyed := keyed_empty
  plain h := by cases h
  kind h := by cases h
  parent h := by cases h
  fits h := by cases h
  dated h := by cases h

theorem Shaped.directory_eq {c' : Catalog} {e' : Entry} (hc : Shaped D c) (hc' : Shaped D c') (he : c.get? p = some e)
    (he' : c'.get? p = some e') : e.directory = e'.directory :=
  Bool.eq_iff_iff.2 ((hc.kind he).trans (hc'.kind he').symm)

theorem Shaped.plain_of_mem (hc : Shaped D c) (he : e ∈ c.toList) : Entry.IsPlain e.path :=
  hc.plain (hc.keyed.mem_toList.1 he)

section Sequence

variable {catalogs : List Catalog}

/-- The paths at which a catalog of the sequence has something below. -/
def InnerPath (catalogs : List Catalog) (p : String) : Prop :=
  ∃ c ∈ catalogs, ∃ e ∈ c.toList, p ∈ Entry.ancestors e.path

/-- The directories of a sequence of storable files are the inner paths. -/
theorem directory_iff_inner (hl : ∀ e ∈ l, e.Storable) (hc : ofList l ∈ catalogs) (hkinds : KindsAgree catalogs)
    (he : (ofList l).get? p = some e) : e.directory = true ↔ InnerPath catalogs p := by
  obtain ⟨hpath, hfile | ⟨f, hf, hancestor, rfl⟩⟩ := (holds_ofList l).entry he
  · refine iff_of_false (by rw [(hl e hfile).file]; decide) ?_
    rintro ⟨c', hc', e', he', hp⟩
    rw [← hpath] at hp
    exact hkinds _ hc e (mem_toList.2 ⟨p, he⟩) (hl e hfile).file c' hc' e' he' hp
  · obtain ⟨g, -, hpath, hg⟩ := (holds_ofList l).file f hf
    exact iff_of_true rfl ⟨_, hc, g, mem_toList.2 ⟨_, hg⟩, by rw [hpath]; exact hancestor⟩

theorem regular_ofList (hl : ∀ e ∈ l, e.Storable) (hc : ofList l ∈ catalogs) (hkinds : KindsAgree catalogs) :
    Regular (InnerPath catalogs) (ofList l) where
  keyed := keyed_ofList l
  plain he := isPlain_of_get? (fun e he => (hl e he).plain) he
  kind he := directory_iff_inner hl hc hkinds he
  parent {p e} he hparent := by
    have habove := Entry.parent_mem_ancestors hparent
    have hinner : InnerPath catalogs e.parent := ⟨_, hc, e, mem_toList.2 ⟨p, he⟩, habove⟩
    have hthere : ∃ d, (ofList l).get? e.parent = some d := by
      obtain ⟨hpath, hfile | ⟨f, hf, hancestor, -⟩⟩ := (holds_ofList l).entry he
      · exact (holds_ofList l).ancestor e hfile _ habove
      · rw [hpath] at habove
        exact (holds_ofList l).ancestor f hf _ (Entry.ancestors_trans hancestor habove)
    obtain ⟨d, hd⟩ := hthere
    exact ⟨d, hd, (directory_iff_inner hl hc hkinds hd).2 hinner⟩
  fits {p e} he := by
    obtain ⟨-, hfile | ⟨f, hf, hancestor, rfl⟩⟩ := (holds_ofList l).entry he
    · exact Bool.and_eq_true_iff.2 ⟨(hl e hfile).object, (hl e hfile).size⟩
    · exact Bool.and_eq_true_iff.2 ⟨(hl f hf).implied p hancestor, rfl⟩
  dated {p e} he hkind := by
    obtain ⟨-, hfile | ⟨f, hf, hancestor, rfl⟩⟩ := (holds_ofList l).entry he
    · exact (hl e hfile).mtime
    · cases hkind

end Sequence

end Catalog

end OnDemand
