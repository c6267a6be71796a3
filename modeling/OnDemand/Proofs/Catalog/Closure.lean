import Mathlib.Logic.Relation
import OnDemand.Proofs.Catalog.Contents
import OnDemand.Proofs.Catalog.Segments

/-!
# Closure under ancestors

The ancestors of a path are what is left of it when it is cut at its last slash, again and again until nothing is left.
A catalog holds the paths that were inserted and their ancestors: at an inserted path the entry that came last, at any
other the directory that the first entry below it implied.
-/

namespace OnDemand

namespace Entry

variable {path a p : String} {e : Entry}

/-! ## Cutting at the last slash -/

/-- Cutting `path` at its last slash leaves `a`. -/
def Cut (path a : String) : Prop := ∃ t, '/' ∉ t ∧ path.toList = a.toList ++ '/' :: t

/-- Cutting `path` at its last slash, once or more often, leaves `a`. -/
def CutsTo (path a : String) : Prop := Relation.TransGen Cut path a

def IsAncestor (a path : String) : Prop := a ≠ "" ∧ CutsTo path a

/-- Repeated cuts leave what stands before any slash. -/
theorem cutsTo_iff : CutsTo path a ↔ ∃ t, path.toList = a.toList ++ '/' :: t := by
  constructor
  · intro h
    induction h with
    | single h =>
      obtain ⟨t, -, ht⟩ := h
      exact ⟨t, ht⟩
    | tail _ h ih =>
      obtain ⟨t, ht⟩ := ih
      obtain ⟨t', -, ht'⟩ := h
      exact ⟨t' ++ '/' :: t, by rw [ht, ht', List.append_assoc, List.cons_append]⟩
  · rintro ⟨t, ht⟩
    -- One cut for each slash from `a` on, the last slash first.
    induction hlength : t.length using Nat.strongRecOn generalizing path t with
    | ind n ih =>
      by_cases hslash : '/' ∈ t
      · obtain ⟨front, back, rfl, hback⟩ := exists_last_slash hslash
        have hcut : Cut path (String.ofList (a.toList ++ '/' :: front)) :=
          ⟨back, hback, by rw [ht, String.toList_ofList, List.append_assoc, List.cons_append]⟩
        refine .head hcut (ih front.length ?_ front (String.toList_ofList ..) rfl)
        rw [← hlength, List.length_append, List.length_cons]
        omega
      · exact .single ⟨t, hslash, ht⟩

theorem isAncestor_iff : IsAncestor a path ↔ a ∈ ancestors path := by
  rw [IsAncestor, cutsTo_iff, mem_ancestors]

instance : Decidable (IsAncestor a path) := decidable_of_iff' _ isAncestor_iff

theorem IsAncestor.trans (h : IsAncestor a p) (h' : IsAncestor p path) : IsAncestor a path := ⟨h.1, h'.2.trans h.2⟩

theorem lt_of_cutsTo (h : CutsTo path a) : a < path := by
  obtain ⟨t, ht⟩ := cutsTo_iff.1 h
  exact lt_of_slash ht

/-- What stands before the last slash of `path`; nothing without one. -/
def cutLast (path : String) : String := String.ofList ((cuts path.toList).getLast?.getD [])

theorem parent_eq_cutLast (e : Entry) : e.parent = cutLast e.path := rfl

/-- The path and its ancestors, outermost first; nothing for the empty path. -/
def lineage (path : String) : List String := if path = "" then [] else ancestors path ++ [path]

theorem ancestors_eq_lineage (path : String) : ancestors path = lineage (cutLast path) := by
  by_cases hslash : '/' ∈ path.toList
  · obtain ⟨a, t, hpath, ht⟩ := exists_last_slash hslash
    have hcut : cutLast path = String.ofList a := by
      rw [cutLast, hpath, getLast?_cuts_append ht]
      rfl
    rw [hcut, lineage, ancestors, hpath, cuts_append ht, ancestors, String.toList_ofList]
    cases a with
    | nil => rfl
    | cons c a => simp
  · rw [ancestors, cutLast, cuts_eq_nil hslash]
    rfl

theorem lineage_of_ne (h : path ≠ "") : lineage path = lineage (cutLast path) ++ [path] := by
  rw [lineage, if_neg h, ancestors_eq_lineage]

end Entry

namespace Catalog

open Entry (IsAncestor)

variable {c : Catalog} {e f : Entry} {l : List Entry} {p a : String} {mtime : Int}

/-! ## The loop of an insertion -/

/-- The loop in at most `rounds` rounds: the directory at `path` is implied, and then the one that `path` is cut to, until
nothing is left of it. -/
def climb (mtime : Int) : Nat → Table String Entry → String → Option (Table String Entry)
  | 0, entries, path => if path = "" then some entries else none
  | rounds + 1, entries, path =>
    if path = "" then some entries else climb mtime rounds (imply mtime entries path) (Entry.cutLast path)

theorem climb_eq (mtime : Int) (rounds : Nat) (entries : Table String Entry) (path : String) :
    climb mtime rounds entries path = if rounds < (Entry.lineage path).length then none
      else some ((Entry.lineage path).reverse.foldl (imply mtime) entries) := by
  induction rounds generalizing entries path with
  | zero =>
    by_cases hpath : path = ""
    · simp [climb, Entry.lineage, hpath]
    · simp [climb, Entry.lineage, hpath]
  | succ rounds ih =>
    by_cases hpath : path = ""
    · simp [climb, Entry.lineage, hpath]
    · rw [climb, if_neg hpath, ih, Entry.lineage_of_ne hpath, List.length_append, List.reverse_append]
      simp

/-- Directories are implied in either order. -/
theorem foldl_imply_reverse (entries : Table String Entry) (paths : List String) :
    paths.reverse.foldl (imply mtime) entries = paths.foldl (imply mtime) entries :=
  Table.ext_get? fun q => by
    rw [get?_foldl_imply, get?_foldl_imply]
    simp only [List.mem_reverse]

/-- The loop takes as many rounds as the path has ancestors, and leaves what is inserted besides the entry itself. -/
theorem climb_insert (c : Catalog) (e : Entry) (rounds : Nat) :
    (climb e.mtime rounds c.entries e.parent).map (fun entries => Catalog.mk (entries.insert e.path e)) =
      if rounds < (Entry.ancestors e.path).length then none else some (c.insert e) := by
  rw [climb_eq, Entry.parent_eq_cutLast, ← Entry.ancestors_eq_lineage, foldl_imply_reverse]
  split <;> rfl

/-! ## The closure -/

theorem mem_paths : p ∈ c.paths ↔ ∃ e, c.get? p = some e := by
  rw [paths, Table.mem_keys, Table.contains_iff]
  rfl

theorem firstBelow?_eq (l : List Entry) (p : String) : firstBelow? l p = l.find? (IsAncestor p ·.path) := by
  simp only [Entry.isAncestor_iff]
  rfl

/-- Something stands at the inserted paths and at their ancestors. -/
theorem exists_get?_ofList : (∃ e, (ofList l).get? p = some e) ↔ ∃ e ∈ l, e.path = p ∨ IsAncestor p e.path := by
  rw [← Option.ne_none_iff_exists', ne_eq, get?_ofList_eq_none]
  simp only [Entry.isAncestor_iff, ← not_or, not_forall, not_not, exists_prop]

/-- Something stands at every ancestor of an entry. -/
theorem exists_get?_of_isAncestor (he : (ofList l).get? p = some e) (ha : IsAncestor a p) :
    ∃ d, (ofList l).get? a = some d := by
  obtain ⟨f, hf, hp⟩ := exists_get?_ofList.1 ⟨e, he⟩
  refine exists_get?_ofList.2 ⟨f, hf, .inr ?_⟩
  rcases hp with rfl | hp
  · exact ha
  · exact ha.trans hp

/-- What holds of the inserted paths, and with a path of its ancestors, holds of all paths. -/
theorem forall_get?_of_inserted {P : String → Prop} (habove : ∀ {path a}, P path → a ∈ Entry.ancestors path → P a)
    (hl : ∀ e ∈ l, P e.path) (he : (ofList l).get? p = some e) : P p := by
  obtain ⟨f, hf, rfl | hp⟩ := exists_get?_ofList.1 ⟨e, he⟩
  · exact hl f hf
  · exact habove (hl f hf) (Entry.isAncestor_iff.1 hp)

theorem isPlain_of_get? (hplain : ∀ e ∈ l, Entry.IsPlain e.path) (he : (ofList l).get? p = some e) : Entry.IsPlain p :=
  forall_get?_of_inserted .ancestor hplain he

theorem isTidy_of_get? (htidy : ∀ e ∈ l, Entry.IsTidy e.path) (he : (ofList l).get? p = some e) : Entry.IsTidy p :=
  forall_get?_of_inserted .ancestor htidy he

/-- Insertions build the closure of the inserted paths under ancestors: at an inserted path stands the entry inserted
there last, at any other the directory implied by the first entry below it. Every ancestor comes before what is below it.
The loop of an insertion ends after as many rounds as the path has ancestors, for any path. -/
theorem ofList_closure (l : List Entry) :
    (∀ p, p ∈ (ofList l).paths ↔ ∃ e ∈ l, e.path = p ∨ IsAncestor p e.path) ∧
      (∀ p, (ofList l).get? p = (l.reverse.find? (·.path = p)).or
        ((l.find? (IsAncestor p ·.path)).map fun f => ⟨p, p ++ "/", 0, f.mtime, true⟩)) ∧
      (∀ before e after, (ofList l).toList = before ++ e :: after →
        ∀ a, IsAncestor a e.path → ∃ d ∈ before, d.path = a) ∧
      ∀ (c : Catalog) (e : Entry) (rounds : Nat),
        (climb e.mtime rounds c.entries e.parent).map (fun entries => Catalog.mk (entries.insert e.path e)) =
          if rounds < (Entry.ancestors e.path).length then none else some (c.insert e) := by
  refine ⟨fun p => mem_paths.trans exists_get?_ofList, fun p => ?_, fun before e after hsplit a ha => ?_, climb_insert⟩
  · rw [get?_ofList, firstBelow?_eq]
    rfl
  · have hkeyed := keyed_ofList l
    have he : (ofList l).get? e.path = some e :=
      hkeyed.mem_toList.1 (by rw [hsplit]; exact List.mem_append_right _ List.mem_cons_self)
    obtain ⟨d, hd⟩ := exists_get?_of_isAncestor he ha
    have hpath : d.path = a := hkeyed _ _ hd
    refine ⟨d, mem_before_of_increasing hkeyed.increasing hsplit (mem_toList.2 ⟨a, hd⟩) ?_, hpath⟩
    rw [hpath]
    exact Entry.lt_of_cutsTo ha.2

/-- Slashes that are doubled, that lead or that trail, and a path inserted twice. -/
def doubled : List Entry :=
  [⟨"/a//b/", "o1", 1, 1, false⟩, ⟨"a//c", "o2", 2, 5, false⟩, ⟨"a/d", "o3", 3, 7, false⟩, ⟨"a/d", "o4", 4, 8, false⟩]

theorem ofList_closure_doubled :
    (ofList doubled).paths = ["/a", "/a/", "/a//b", "/a//b/", "a", "a/", "a//c", "a/d"] ∧
      (ofList doubled).get? "a" = some ⟨"a", "a/", 0, 5, true⟩ ∧
      (ofList doubled).get? "a/d" = some ⟨"a/d", "o4", 4, 8, false⟩ ∧
      (ofList doubled).toList =
        (ofList doubled).toList.take 6 ++ ⟨"a//c", "o2", 2, 5, false⟩ :: (ofList doubled).toList.drop 7 ∧
      IsAncestor "a/" "a//c" ∧ ∃ d ∈ (ofList doubled).toList.take 6, d.path = "a/" := by
  obtain ⟨-, hget, hbefore, -⟩ := ofList_closure doubled
  have hsplit : (ofList doubled).toList =
      (ofList doubled).toList.take 6 ++ ⟨"a//c", "o2", 2, 5, false⟩ :: (ofList doubled).toList.drop 7 := by
    decide +kernel
  have hancestor : IsAncestor "a/" "a//c" := by decide +kernel
  refine ⟨by decide +kernel, ?_, ?_, hsplit, hancestor, hbefore _ _ _ hsplit _ hancestor⟩
  · rw [hget]
    decide +kernel
  · rw [hget]
    decide +kernel

end Catalog

end OnDemand
