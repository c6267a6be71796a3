import OnDemand.Proofs.Reconcile.Convergence

/-!
# Populating a fresh root

Above an entry of a catalog made of files stands a directory, unless a file was inserted there as well. Then nothing below
that file can have its placeholder, and everything else has.
-/

namespace OnDemand

open Entry (IsAncestor)

namespace Catalog

variable {l : List Entry} {d e : Entry} {p a : String}

/-- None of the inserted entries is above `path`. -/
def Clear (l : List Entry) (path : String) : Prop := ∀ f ∈ l, ¬IsAncestor f.path path

instance (l : List Entry) (path : String) : Decidable (Clear l path) :=
  inferInstanceAs (Decidable (∀ f ∈ l, ¬IsAncestor f.path path))

theorem Clear.above (h : Clear l p) (ha : IsAncestor a p) : Clear l a := fun f hf hfa => h f hf (hfa.trans ha)

/-- In a catalog of files the directories are where no file was inserted. -/
theorem directory_iff_not_inserted (hfiles : ∀ e ∈ l, e.directory = false) (hd : (ofList l).get? p = some d) :
    d.directory = true ↔ ∀ f ∈ l, f.path ≠ p := by
  rw [get?_ofList] at hd
  cases hlast : last? l p with
  | none =>
    rw [hlast, Option.none_or] at hd
    obtain ⟨f, -, rfl⟩ := Option.map_eq_some_iff.1 hd
    exact iff_of_true rfl (last?_eq_none.1 hlast)
  | some g =>
    rw [hlast, Option.some_or] at hd
    obtain rfl := Option.some.inj hd
    obtain ⟨hg, hpath⟩ := mem_of_last? hlast
    exact iff_of_false (by rw [hfiles g hg]; decide) fun h => h g hg hpath

/-- The entries above an entry are directories exactly if it is clear. -/
theorem directories_above_iff (hfiles : ∀ e ∈ l, e.directory = false) (he : (ofList l).get? p = some e) :
    (∀ a, IsAncestor a p → ∃ d, (ofList l).get? a = some d ∧ d.directory = true) ↔ Clear l p := by
  constructor
  · intro h f hf hancestor
    obtain ⟨d, hd, hdirectory⟩ := h f.path hancestor
    exact (directory_iff_not_inserted hfiles hd).1 hdirectory f hf rfl
  · intro h a ha
    obtain ⟨d, hd⟩ := exists_get?_of_isAncestor he ha
    refine ⟨d, hd, (directory_iff_not_inserted hfiles hd).2 fun f hf hpath => h f hf ?_⟩
    rw [hpath]
    exact ha

/-- All entries are clear if the inserted ones are. -/
theorem clear_iff : (∀ e ∈ (ofList l).toList, Clear l e.path) ↔ ∀ e ∈ l, Clear l e.path := by
  constructor
  · intro h e he
    obtain ⟨g, hg⟩ := exists_get?_ofList.2 ⟨e, he, .inl rfl⟩
    rw [← keyed_ofList l _ _ hg]
    exact h g (mem_toList.2 ⟨_, hg⟩)
  · intro h e he
    obtain ⟨f, hf, hpath | hancestor⟩ := exists_get?_ofList.1 ⟨e, (keyed_ofList l).mem_toList.1 he⟩
    · rw [← hpath]
      exact h f hf
    · exact (h f hf).above hancestor

/-- What is above an entry is its parent or above its parent. -/
theorem clear_iff_parent (hparent : e.parent ≠ "") :
    Clear l e.path ↔ Clear l e.parent ∧ ∀ f ∈ l, f.path ≠ e.parent := by
  have habove : ∀ a, IsAncestor a e.path ↔ IsAncestor a e.parent ∨ a = e.parent := by
    intro a
    rw [Entry.isAncestor_iff, Entry.ancestors_eq_lineage, ← Entry.parent_eq_cutLast, Entry.lineage, if_neg hparent,
      List.mem_append, List.mem_singleton, Entry.isAncestor_iff]
  simp only [Clear, habove, not_or]
  exact forall₂_and

theorem clear_of_no_parent (hparent : e.parent = "") : Clear l e.path := by
  intro f _ hf
  rw [Entry.isAncestor_iff, Entry.ancestors_eq_lineage, ← Entry.parent_eq_cutLast, hparent] at hf
  cases hf

theorem errands_populate (c : Catalog) : Reconcile.errands (empty.diff c) = c.toList.map (⟨·, true⟩) := by
  have hadded : (empty.diff c).added = c.toList := List.filter_eq_self.2 fun _ _ => rfl
  have hchanged : (empty.diff c).changed = [] := List.filter_eq_nil_iff.2 fun _ _ => Bool.false_ne_true
  rw [Reconcile.errands, hadded, hchanged, List.map_nil, List.append_nil]

end Catalog

namespace Reconcile

open Catalog (Clear ofList)

variable {root : Path} {b : Bridge Facility} {l before after : List Entry} {e : Entry}

/-- Of the entries that had their turn the clear ones are there, each of its kind, and nothing else. -/
structure Populated (root : Path) (l before : List Entry) (f : Facility) : Prop where
  ready : f.Ready root
  there : ∀ d ∈ before, Clear l d.path →
    ∃ p, f.placeholders.get? (Entry.place root d.path) = some p ∧ p.isDirectory = d.directory
  only : ∀ {path p}, f.placeholders.get? (Entry.place root path) = some p → ∃ d ∈ before, d.path = path ∧ Clear l path

theorem populated_nil (hready : b.facility.Ready root) (hvacant : Vacant root b.facility) :
    Populated root l [] b.facility where
  ready := hready
  there _ hd := absurd hd List.not_mem_nil
  only {path p} hp := by
    rw [hvacant _ (Entry.isPrefix_place root path) (Entry.place_ne_root root path)] at hp
    cases hp

/-- When the turn of an entry comes, the directory to hold it is there exactly if the entry is clear. -/
theorem Populated.holds_iff (h : Populated root l before b.facility) (hfiles : ∀ e ∈ l, e.directory = false)
    (hplain : Entry.IsPlain e.path) (hsplit : (ofList l).toList = before ++ e :: after) :
    b.facility.Holds root (e.parentIn root) ↔ Clear l e.path := by
  have hkeyed := Catalog.keyed_ofList l
  have he : (ofList l).get? e.path = some e :=
    hkeyed.mem_toList.1 (by rw [hsplit]; exact List.mem_append_right _ List.mem_cons_self)
  rw [Facility.Holds, Facility.placeholder?, Entry.route_parentIn hplain]
  by_cases hparent : e.parent = ""
  · rw [if_pos hparent]
    exact iff_of_true (.inl rfl) (Catalog.clear_of_no_parent hparent)
  · have habove : IsAncestor e.parent e.path := Entry.isAncestor_iff.2 (Entry.parent_mem_ancestors hparent)
    obtain ⟨d, hd⟩ := Catalog.exists_get?_of_isAncestor he habove
    have hpath : d.path = e.parent := hkeyed _ _ hd
    have hbefore : d ∈ before :=
      Catalog.mem_before_of_increasing hkeyed.increasing hsplit (Catalog.mem_toList.2 ⟨_, hd⟩)
        (by rw [hpath]; exact Entry.lt_of_cutsTo habove.2)
    have hthere := h.there d hbefore
    rw [hpath] at hthere
    rw [if_neg hparent, Catalog.clear_iff_parent hparent, ← Catalog.directory_iff_not_inserted hfiles hd]
    constructor
    · rintro (hroot | ⟨p, hp, hdirectory⟩)
      · exact absurd hroot (Entry.place_ne_root root e.parent)
      · obtain ⟨-, -, -, hclear⟩ := h.only hp
        obtain ⟨p', hp', hkind⟩ := hthere hclear
        obtain rfl := Option.some.inj (hp.symm.trans hp')
        exact ⟨hclear, hkind.symm.trans hdirectory⟩
    · rintro ⟨hclear, hdirectory⟩
      obtain ⟨p, hp, hkind⟩ := hthere hclear
      exact .inr ⟨p, hp, hkind.trans hdirectory⟩

/-- Nothing stands at the place of an entry before its turn. -/
theorem Populated.vacant (h : Populated root l before b.facility) (hplain : Entry.IsPlain e.path)
    (hsplit : (ofList l).toList = before ++ e :: after) : b.facility.placeholder? (e.pathIn root) = none := by
  rw [Facility.placeholder?, Entry.route_pathIn root hplain]
  refine Option.eq_none_iff_forall_ne_some.2 fun p hp => ?_
  obtain ⟨d, hd, hpath, -⟩ := h.only hp
  have hsorted := (Catalog.keyed_ofList l).increasing
  rw [hsplit, List.pairwise_append] at hsorted
  have hlt := hsorted.2.2 d hd e List.mem_cons_self
  rw [hpath] at hlt
  exact String.lt_irrefl _ hlt

/-- A clear entry gets its placeholder. -/
theorem Populated.created (h : Populated root l before b.facility) (hclear : Clear l e.path)
    (hplain : Entry.IsPlain e.path) (hvacant : b.facility.placeholder? (e.pathIn root) = none) :
    Populated root l (before ++ [e]) (b.put (e.pathIn root) (fresh root e)).facility := by
  have hput : (b.put (e.pathIn root) (fresh root e)).facility.placeholders =
      b.facility.placeholders.insert (Entry.place root e.path) (fresh root e) := by
    rw [← Entry.route_pathIn root hplain]
    rfl
  rw [Facility.placeholder?, Entry.route_pathIn root hplain] at hvacant
  refine ⟨h.ready.withPlaceholders _, fun d hd hd' => ?_, fun {path p} hp => ?_⟩
  · rw [hput]
    rcases List.mem_append.1 hd with hd | hd
    · obtain ⟨p, hp, hkind⟩ := h.there d hd hd'
      refine ⟨p, ?_, hkind⟩
      rw [Table.get?_insert_of_ne fun hplace => ?_, hp]
      rw [hplace, hvacant] at hp
      cases hp
    · rw [List.mem_singleton.1 hd]
      exact ⟨_, Table.get?_insert_self, isDirectory_fresh⟩
  · rw [hput] at hp
    rcases Table.get?_insert_cases hp with ⟨hplace, -⟩ | ⟨-, hp⟩
    · rw [Entry.place_injective hplace]
      exact ⟨e, List.mem_append_right _ (List.mem_singleton_self e), rfl, hclear⟩
    · obtain ⟨d, hd, hpath, hd'⟩ := h.only hp
      exact ⟨d, List.mem_append_left _ hd, hpath, hd'⟩

/-- An entry that is not clear gets none. -/
theorem Populated.refused (h : Populated root l before b.facility) (hclear : ¬Clear l e.path) :
    Populated root l (before ++ [e]) b.facility where
  ready := h.ready
  there d hd hd' := by
    rcases List.mem_append.1 hd with hd | hd
    · exact h.there d hd hd'
    · rw [List.mem_singleton.1 hd] at hd'
      exact absurd hd' hclear
  only hp := by
    obtain ⟨d, hd, hpath, hd'⟩ := h.only hp
    exact ⟨d, List.mem_append_left _ hd, hpath, hd'⟩

/-- What comes of the errand for an entry of the population. -/
def populating (root : Path) (l : List Entry) (e : Entry) : Except PlaceholderError Placed :=
  if Clear l e.path then .ok .created else .error (.notFound (e.pathIn root) .pathNotFound)

theorem isOk_populating : (populating root l e).isOk = true ↔ Clear l e.path := by
  rw [populating]
  split <;> rename_i hclear
  · exact iff_of_true rfl hclear
  · exact iff_of_false Bool.false_ne_true hclear

theorem Populated.place (h : Populated root l before b.facility) (hfiles : ∀ e ∈ l, e.directory = false)
    (hplain : Entry.IsPlain e.path) (hfits : Bridge.fitsFacility (.ofText e.object) e.size = true)
    (hsplit : (ofList l).toList = before ++ e :: after) :
    (Errand.place root ⟨e, true⟩ b).1 = populating root l e ∧
      Populated root l (before ++ [e]) (Errand.place root ⟨e, true⟩ b).2.facility := by
  have hcalm : b.facility.Calm := ⟨h.ready.calm .create, h.ready.calm .update⟩
  have hholds := (h.ready.takes_iff (below_parentIn hplain)).trans (h.holds_iff hfiles hplain hsplit)
  rw [place_new, populating]
  by_cases hclear : Clear l e.path
  · have hvacant := h.vacant hplain hsplit
    rw [placeAdded_of_placeable hcalm ⟨hplain.name, hfits, hholds.2 hclear⟩, hvacant, if_pos hclear]
    exact ⟨rfl, h.created hclear hplain hvacant⟩
  · have hrefused : ¬Placeable root e b.facility := fun hplaceable => hclear (hholds.1 hplaceable.parent)
    rw [placeAdded_of_not_placeable hcalm hrefused, obstacle, if_pos ⟨hplain.name, hfits⟩,
      h.ready.orphanStatus_eq (below_parentIn hplain), if_neg hclear]
    exact ⟨rfl, h.refused hclear⟩

/-- Every errand of a population comes out by whether its entry is clear. -/
theorem Populated.attempts (h : Populated root l before b.facility) (hfiles : ∀ e ∈ l, e.directory = false)
    (hplain : ∀ e ∈ (ofList l).toList, Entry.IsPlain e.path)
    (hfits : ∀ e ∈ (ofList l).toList, Bridge.fitsFacility (.ofText e.object) e.size = true)
    (hsplit : (ofList l).toList = before ++ after) :
    ∀ a ∈ attempts root (after.map (⟨·, true⟩)) b, a.outcome = populating root l a.errand.entry := by
  induction after generalizing before b with
  | nil => exact fun a ha => absurd ha List.not_mem_nil
  | cons e after ih =>
    have he : e ∈ (ofList l).toList := by
      rw [hsplit]
      exact List.mem_append_right _ List.mem_cons_self
    obtain ⟨houtcome, hnext⟩ := h.place hfiles (hplain e he) (hfits e he) hsplit
    rw [List.map_cons, attempts_cons]
    intro a ha
    rcases List.mem_cons.1 ha with rfl | ha
    · exact houtcome
    · exact ih hnext (by rw [hsplit, List.append_assoc, List.singleton_append]) a ha

/-- Above an entry of a catalog of files something always stands, and it is a directory unless a file was inserted there.
So all is a directory that should be one exactly if no inserted path is above another. When a fresh root is populated,
the entries below an inserted file are those that are refused, for want of a directory to hold them. -/
theorem ancestors_are_directories_iff (l : List Entry) (hfiles : ∀ e ∈ l, e.directory = false) :
    (∀ e ∈ (ofList l).toList, ∀ a, IsAncestor a e.path →
      ∃ d, (ofList l).get? a = some d ∧ (d.directory = true ↔ ∀ f ∈ l, f.path ≠ a)) ∧
    ((∀ e ∈ (ofList l).toList, ∀ a, IsAncestor a e.path → ∃ d, (ofList l).get? a = some d ∧ d.directory = true) ↔
      ∀ e ∈ l, ∀ f ∈ l, ¬IsAncestor f.path e.path) ∧
    ∀ (root : Path) (b : Bridge Facility), (∀ e ∈ l, Entry.IsPlain e.path) →
      (∀ e ∈ (ofList l).toList, Bridge.fitsFacility (.ofText e.object) e.size = true) →
      b.facility.Ready root → Vacant root b.facility →
        (∀ a ∈ attempts root (errands (Catalog.empty.diff (ofList l))) b, a.outcome =
          if ∀ f ∈ l, ¬IsAncestor f.path a.errand.entry.path then .ok .created
          else .error (.notFound (a.errand.entry.pathIn root) .pathNotFound)) ∧
        ((run root (Catalog.empty.diff (ofList l)) b).1.failed = 0 ↔ ∀ e ∈ l, ∀ f ∈ l, ¬IsAncestor f.path e.path) := by
  have hkeyed := Catalog.keyed_ofList l
  refine ⟨fun e he a ha => ?_, ?_, fun root b hplain hfits hready hvacant => ?_⟩
  · obtain ⟨d, hd⟩ := Catalog.exists_get?_of_isAncestor (hkeyed.mem_toList.1 he) ha
    exact ⟨d, hd, Catalog.directory_iff_not_inserted hfiles hd⟩
  · refine Iff.trans (forall₂_congr fun e he => ?_) Catalog.clear_iff
    exact Catalog.directories_above_iff hfiles (hkeyed.mem_toList.1 he)
  · have hall : ∀ e ∈ (ofList l).toList, Entry.IsPlain e.path := fun e he =>
      Catalog.isPlain_of_get? hplain (hkeyed.mem_toList.1 he)
    have houtcomes : ∀ a ∈ attempts root (errands (Catalog.empty.diff (ofList l))) b,
        a.outcome = populating root l a.errand.entry := by
      rw [Catalog.errands_populate]
      exact (populated_nil hready hvacant).attempts hfiles hall hfits (List.nil_append _).symm
    refine ⟨houtcomes, ?_⟩
    rw [failed_run_eq_zero]
    refine Iff.trans ⟨fun h e he => ?_, fun h a ha => ?_⟩ Catalog.clear_iff
    · have herrand : ⟨e, true⟩ ∈ errands (Catalog.empty.diff (ofList l)) := by
        rw [Catalog.errands_populate]
        exact List.mem_map_of_mem he
      obtain ⟨a, ha, hentry⟩ := exists_attempt_of_mem root b herrand
      have hok := h a ha
      rwa [houtcomes a ha, isOk_populating, hentry] at hok
    · rw [houtcomes a ha, isOk_populating]
      exact h _ (entry_mem_of_mem_errands (eq_attempt_of_mem ha).1)

/-- A key and a key below it, and a file beside them. -/
def keyBelowKey : List Entry := [⟨"a", "o", 1, 1, false⟩, ⟨"a/b", "p", 1, 1, false⟩, ⟨"c/d", "q", 1, 1, false⟩]

theorem ancestors_are_directories_keyBelowKey :
    (∀ e ∈ keyBelowKey, e.directory = false) ∧ oneRoot.facility.Ready ⟨"/s"⟩ ∧ Vacant ⟨"/s"⟩ oneRoot.facility ∧
      (∃ d, (ofList keyBelowKey).get? "a" = some d ∧ (d.directory = true ↔ ∀ f ∈ keyBelowKey, f.path ≠ "a")) ∧
      (run ⟨"/s"⟩ (Catalog.empty.diff (ofList keyBelowKey)) oneRoot).1.failed ≠ 0 ∧
      ∀ a ∈ attempts ⟨"/s"⟩ (errands (Catalog.empty.diff (ofList keyBelowKey))) oneRoot, a.outcome =
        if ∀ f ∈ keyBelowKey, ¬IsAncestor f.path a.errand.entry.path then .ok .created
        else .error (.notFound (a.errand.entry.pathIn ⟨"/s"⟩) .pathNotFound) := by
  have hfiles : ∀ e ∈ keyBelowKey, e.directory = false := by decide
  obtain ⟨habove, -, hpopulation⟩ := ancestors_are_directories_iff keyBelowKey hfiles
  obtain ⟨houtcomes, hfailed⟩ :=
    hpopulation ⟨"/s"⟩ oneRoot (by decide +kernel) (by decide +kernel) ready_oneRoot vacant_oneRoot
  have hbelow : (⟨"a/b", "p", 1, 1, false⟩ : Entry) ∈ (ofList keyBelowKey).toList := by decide +kernel
  exact ⟨hfiles, ready_oneRoot, vacant_oneRoot, habove _ hbelow "a" (by decide +kernel), mt hfailed.1 (by decide +kernel), houtcomes⟩

/-- A file stays where a directory would have to be, and in the other order it takes the place of one. -/
theorem file_above_file :
    let stays : Catalog := .ofList [⟨"a", "o", 1, 1, false⟩, ⟨"a/b", "p", 1, 1, false⟩]
    let takes : Catalog := .ofList [⟨"a/b", "p", 1, 1, false⟩, ⟨"a", "o", 1, 1, false⟩]
    IsAncestor "a" "a/b" ∧ (stays.get? "a").map (·.directory) = some false ∧ (stays.get? "a/b").isSome = true ∧
      (takes.get? "a").map (·.directory) = some false ∧ (takes.get? "a/b").isSome = true := by
  decide +kernel

end Reconcile

end OnDemand
