import Mathlib.Data.List.Induction
import OnDemand.Catalog.Diff
import OnDemand.Proofs.Table

/-!
# What a catalog made of files holds

A catalog into which entries are inserted holds, at every path of one, the entry inserted there last, and at every
other ancestor of one, the directory that the first below it implied. A difference takes over every entry that an older
catalog does not already have.
-/

namespace OnDemand

namespace Catalog

variable {c older newer : Catalog} {e f : Entry} {l files : List Entry} {p q a : String} {mtime : Int}

/-! ## Looking entries up -/

theorem mem_toList : e ∈ c.toList ↔ ∃ p, c.get? p = some e := Table.mem_values

/-! ## Inserting a file -/

theorem get?_imply {entries : Table String Entry} :
    (imply mtime entries p).get? q =
      (entries.get? q).or (if q = p then some (.impliedDirectory p mtime) else none) := by
  unfold imply
  split <;> rename_i hp
  · split
    · rename_i hq
      rw [hq]
      obtain ⟨e, he⟩ := Option.isSome_iff_exists.1 hp
      rw [he]
      rfl
    · rw [Option.or_none]
  · have hnone : entries.get? p = none := by simpa [Table.contains] using hp
    split <;> rename_i hq
    · rw [hq, Table.get?_insert_self, hnone]
      rfl
    · rw [Table.get?_insert_of_ne hq, Option.or_none]

theorem get?_foldl_imply {entries : Table String Entry} {paths : List String} :
    (paths.foldl (imply mtime) entries).get? q =
      (entries.get? q).or (if q ∈ paths then some (.impliedDirectory q mtime) else none) := by
  induction paths generalizing entries with
  | nil => simp
  | cons p paths ih =>
    rw [List.foldl_cons, ih, get?_imply, Option.or_assoc]
    congr 1
    by_cases hq : q = p
    · simp [hq]
    · simp [hq]

theorem get?_insert : (c.insert e).get? q = if q = e.path then some e else
    (c.get? q).or (if q ∈ Entry.ancestors e.path then some (.impliedDirectory q e.mtime) else none) := by
  unfold insert get?
  split <;> rename_i hq
  · rw [hq, Table.get?_insert_self]
  · rw [Table.get?_insert_of_ne hq, get?_foldl_imply]

/-! ## Inserting a list -/

/-- The last of `l` with the path `p`. -/
def last? (l : List Entry) (p : String) : Option Entry := l.reverse.find? (·.path = p)

/-- The first of `l` that has `p` as an ancestor. -/
def firstBelow? (l : List Entry) (p : String) : Option Entry := l.find? (p ∈ Entry.ancestors ·.path)

theorem last?_append_singleton : last? (l ++ [e]) p = if p = e.path then some e else last? l p := by
  rw [last?, List.reverse_append, List.reverse_singleton, List.singleton_append, List.find?_cons]
  by_cases hp : p = e.path
  · simp [hp]
  · simp [hp, Ne.symm hp, last?]

theorem firstBelow?_append_singleton :
    firstBelow? (l ++ [e]) p = (firstBelow? l p).or (if p ∈ Entry.ancestors e.path then some e else none) := by
  rw [firstBelow?, List.find?_append, firstBelow?]
  congr 1
  by_cases hp : p ∈ Entry.ancestors e.path <;> simp [hp]

theorem last?_eq_none : last? l p = none ↔ ∀ e ∈ l, e.path ≠ p := by
  simp [last?]

theorem firstBelow?_eq_none : firstBelow? l p = none ↔ ∀ e ∈ l, p ∉ Entry.ancestors e.path := by
  simp [firstBelow?]

theorem mem_of_last? (h : last? l p = some e) : e ∈ l ∧ e.path = p := by
  have hpath := List.find?_some h
  exact ⟨List.mem_reverse.1 (List.mem_of_find?_eq_some h), of_decide_eq_true hpath⟩

theorem mem_of_firstBelow? (h : firstBelow? l p = some e) : e ∈ l ∧ p ∈ Entry.ancestors e.path := by
  have habove := List.find?_some h
  exact ⟨List.mem_of_find?_eq_some h, of_decide_eq_true habove⟩

theorem ofList_append_singleton : ofList (l ++ [e]) = (ofList l).insert e := List.foldl_append

/-- At a path stands the last entry inserted there, or else the directory implied by the first entry below it. -/
theorem get?_ofList (l : List Entry) (p : String) :
    (ofList l).get? p = (last? l p).or ((firstBelow? l p).map fun f => .impliedDirectory p f.mtime) := by
  induction l using List.reverseRecOn with
  | nil => rfl
  | append_singleton l e ih =>
    rw [ofList_append_singleton, get?_insert, ih, last?_append_singleton, firstBelow?_append_singleton]
    split
    · rfl
    · rw [Option.or_assoc]
      congr 1
      cases firstBelow? l p with
      | some f => rfl
      | none => split <;> rfl

theorem get?_ofList_eq_none :
    (ofList l).get? p = none ↔ ∀ e ∈ l, e.path ≠ p ∧ p ∉ Entry.ancestors e.path := by
  rw [get?_ofList, Option.or_eq_none_iff, Option.map_eq_none_iff, last?_eq_none, firstBelow?_eq_none]
  exact ⟨fun h e he => ⟨h.1 e he, h.2 e he⟩, fun h => ⟨fun e he => (h e he).1, fun e he => (h e he).2⟩⟩

/-- `c` holds what is inserted into a catalog with `files`, and nothing else. -/
structure Holds (files : List Entry) (c : Catalog) : Prop where
  entry : ∀ {p e}, c.get? p = some e →
    e.path = p ∧ (e ∈ files ∨ ∃ f ∈ files, p ∈ Entry.ancestors f.path ∧ e = .impliedDirectory p f.mtime)
  file : ∀ f ∈ files, ∃ g ∈ files, g.path = f.path ∧ c.get? f.path = some g
  ancestor : ∀ f ∈ files, ∀ a ∈ Entry.ancestors f.path, ∃ e, c.get? a = some e

theorem holds_ofList (l : List Entry) : Holds l (ofList l) where
  entry {p e} he := by
    rw [get?_ofList] at he
    rcases Option.or_eq_some_iff.1 he with hlast | ⟨-, himplied⟩
    · exact ⟨(mem_of_last? hlast).2, .inl (mem_of_last? hlast).1⟩
    · obtain ⟨f, hf, rfl⟩ := Option.map_eq_some_iff.1 himplied
      exact ⟨rfl, .inr ⟨f, (mem_of_firstBelow? hf).1, (mem_of_firstBelow? hf).2, rfl⟩⟩
  file f hf := by
    cases hlast : last? l f.path with
    | none => exact absurd rfl (last?_eq_none.1 hlast f hf)
    | some g => exact ⟨g, (mem_of_last? hlast).1, (mem_of_last? hlast).2, by rw [get?_ofList, hlast]; rfl⟩
  ancestor f hf a ha :=
    Option.ne_none_iff_exists'.1 fun hnone => (get?_ofList_eq_none.1 hnone f hf).2 ha

/-! ## Keyed catalogs -/

/-- Every entry is kept at its own path. -/
def Keyed (c : Catalog) : Prop := ∀ p e, c.get? p = some e → e.path = p

theorem keyed_empty : empty.Keyed := fun _ _ h => by cases h

theorem keyed_ofList (l : List Entry) : (ofList l).Keyed := fun _ _ h => ((holds_ofList l).entry h).1

theorem Keyed.mem_toList (h : c.Keyed) : e ∈ c.toList ↔ c.get? e.path = some e := by
  rw [Catalog.mem_toList]
  exact ⟨fun ⟨p, hp⟩ => by rw [h p e hp, hp], fun he => ⟨_, he⟩⟩

theorem Keyed.eq_of_path (h : c.Keyed) (he : e ∈ c.toList) (hf : f ∈ c.toList) (hpath : e.path = f.path) : e = f := by
  have hget := h.mem_toList.1 he
  rw [hpath, h.mem_toList.1 hf] at hget
  exact (Option.some.inj hget).symm

/-- Entries come in the order of their paths. -/
theorem Keyed.increasing (h : c.Keyed) : c.toList.Pairwise fun d e => d.path < e.path := by
  rw [toList, Table.values, List.pairwise_map]
  refine c.entries.increasing.imp_of_mem fun {x y} hx hy hxy => ?_
  have hpath : ∀ z ∈ c.entries.toList, z.2.path = z.1 := fun z hz => h _ _ (Table.mem_toList.1 hz)
  rw [hpath x hx, hpath y hy]
  exact compareOfLessAndEq_eq_lt.1 hxy

/-- In the order of paths, everything with a lesser path comes before. -/
theorem mem_before_of_increasing {before after : List Entry} (h : l.Pairwise fun d e => d.path < e.path)
    (hl : l = before ++ e :: after) (hf : f ∈ l) (hlt : f.path < e.path) : f ∈ before := by
  subst hl
  have hafter := (List.pairwise_cons.1 (List.pairwise_append.1 h).2.1).1
  rw [List.mem_append, List.mem_cons] at hf
  rcases hf with hf | rfl | hf
  · exact hf
  · exact absurd hlt (String.lt_irrefl _)
  · exact absurd (String.lt_trans hlt (hafter f hf)) (String.lt_irrefl _)

/-! ## Differences -/

theorem mem_added : e ∈ (older.diff newer).added ↔ e ∈ newer.toList ∧ older.get? e.path = none := by
  rw [diff, List.mem_filter, Option.isNone_iff_eq_none]

theorem mem_changed : e ∈ (older.diff newer).changed ↔
    e ∈ newer.toList ∧ ∃ old, older.get? e.path = some old ∧ e.directory = false ∧ old.differs e = true := by
  rw [diff, List.mem_filter, changes, Option.any_eq_true]
  simp only [Bool.and_eq_true, Bool.not_eq_true']

/-- What is added comes after every added entry with a lesser path. -/
theorem mem_before_of_lt (h : newer.Keyed) {before after : List Entry}
    (hadded : (older.diff newer).added = before ++ e :: after) (hd : f ∈ (older.diff newer).added)
    (hlt : f.path < e.path) : f ∈ before :=
  mem_before_of_increasing (h.increasing.filter _) hadded hd hlt

theorem differs_eq_false (h : e.differs f = false) : e.object = f.object ∧ e.size = f.size ∧ e.mtime = f.mtime := by
  simpa [Entry.differs, and_assoc] using h

/-- A file that a difference passes over is in the older catalog with the same contents. -/
theorem get?_of_passed_over (he : e ∈ newer.toList) (hadded : e ∉ (older.diff newer).added)
    (hchanged : e ∉ (older.diff newer).changed) :
    ∃ old, older.get? e.path = some old ∧
      (e.directory = false → old.object = e.object ∧ old.size = e.size ∧ old.mtime = e.mtime) := by
  cases hold : older.get? e.path with
  | none => exact absurd (mem_added.2 ⟨he, hold⟩) hadded
  | some old =>
    refine ⟨old, rfl, fun hfile => differs_eq_false (Bool.eq_false_iff.2 fun hdiffers => ?_)⟩
    exact hchanged (mem_changed.2 ⟨he, old, hold, hfile, hdiffers⟩)

end Catalog

end OnDemand
