import Mathlib.Algebra.Order.BigOperators.Group.List
import Mathlib.Algebra.Order.Group.Nat
import OnDemand.Proofs.Catalog.Loading

/-!
# Slashes around the remote prefix

Slashes at the end of a remote prefix are taken off before anything else. Slashes at the front, and an empty prefix, are
not: the store lists the same index, but no key starts with its directory, so every entry keeps its whole key.
-/

namespace OnDemand

namespace Index

variable {p : String}

/-! ## The directory of a prefix with one more slash -/

theorem directory_append_slash (p : String) : directory (p ++ "/") = directory p := by
  have htext : (p ++ "/").toList = p.toList ++ List.replicate 1 '/' := String.toList_append
  rw [← String.toList_inj, Store.toList_directory, Store.toList_directory, htext, Store.rdropWhile_slashes]

theorem directory_slash_append (h : Store.IsNormal (directory p)) : directory ("/" ++ p) = "/" ++ directory p := by
  have hne : p.toList.rdropWhile (· = '/') ≠ [] := by
    intro he
    have hdirectory := Store.toList_directory p
    rw [he] at hdirectory
    exact (h.front '/' (by rw [hdirectory]; rfl)).2 rfl
  have hcons : ('/' :: p.toList).rdropWhile (· = '/') = '/' :: p.toList.rdropWhile (· = '/') := by
    have hreverse : p.toList.reverse.dropWhile (· = '/') ≠ [] := fun he => hne (by rw [List.rdropWhile, he]; rfl)
    rw [List.rdropWhile, List.reverse_cons, List.dropWhile_append, if_neg (by simpa using hreverse), List.reverse_append]
    rfl
  have htext : ("/" ++ p).toList = '/' :: p.toList := by rw [String.toList_append]; rfl
  rw [← String.toList_inj, Store.toList_directory, htext, hcons, String.toList_append, Store.toList_directory]
  rfl

theorem stem_slash_append (h : Store.IsNormal (directory p)) : stem ("/" ++ p) = "" := by
  rw [stem, if_neg]
  rw [directory_slash_append h]
  intro hnormal
  exact (hnormal.front '/' (by rw [String.toList_append]; rfl)).2 rfl

end Index

namespace ObjectStore

variable {s : ObjectStore} {objects : Store.Memory} {p path place : String} {e : Entry} {c : Catalog}

/-! ## Whole keys -/

-- The induction is on how much longer than `path` a key can still be.
/-- If the files of a catalog stand at their whole keys, and yet every file is indexed at its path below the place that
was listed, then there are none: below every key there would be a longer one. -/
theorem not_indexed_of_whole_keys (h : s.Presents objects) (hplace : (Store.normalKey place).toList ≠ [])
    (hwhole : ∀ path e, Store.IsBelow place path → s.Indexes objects "" path e → c.get? path = some e)
    (hbelow : ∀ path e, c.get? path = some e → e.directory = false →
      s.Indexes objects (Store.normalKey place) path e)
    (hpath : Store.IsBelow place path) : ¬ s.Indexes objects "" path e := by
  have hbound : ∀ key ∈ objects.keys, key.toList.length ≤ (objects.keys.map (·.toList.length)).sum := by
    intro key hkey
    exact List.le_sum_of_mem (List.mem_map_of_mem hkey)
  generalize (objects.keys.map (·.toList.length)).sum = bound at hbound
  intro hi
  induction hn : bound - path.toList.length using Nat.strong_induction_on generalizing path e with
  | h n ih =>
    obtain ⟨-, hfile⟩ := hi.entry h (.inl rfl)
    have hnext := hbelow path e (hwhole path e hpath hi) hfile
    obtain ⟨body, hbody, hread, hparse⟩ := hnext.describes
    obtain ⟨e', hparse'⟩ := Index.exists_parse? hparse (Store.normalKey place ++ path)
    have hlonger : s.Indexes objects "" (Store.normalKey place ++ path) e' := by
      refine ⟨?_, body, ?_, ?_, hparse'⟩ <;> rw [String.empty_append]
      · exact hnext.file
      · exact hbody
      · exact hread
    have hlength := hbound _ (Table.mem_keys.2 (Table.contains_iff.2 ⟨body, hbody⟩))
    have hpos := List.length_pos_iff.2 hplace
    rw [String.toList_append, List.length_append] at hlength
    refine ih (bound - (Store.normalKey place ++ path).toList.length) ?_ (.inr ?_) hlonger rfl
    · rw [String.toList_append, List.length_append]
      omega
    · rw [String.toList_append]
      exact List.prefix_append _ _

theorem empty_of_whole_keys (h : s.Presents objects) (hstem : Index.stem p = "") (hc : s.catalogAt p = .ok c)
    (hbelow : ∀ path e, c.get? path = some e → e.directory = false →
      s.Indexes objects (Store.normalKey (Index.directory p)) path e) : c = .empty := by
  obtain ⟨d, hd, hcovers⟩ := catalogAt_covers h p
  obtain rfl := Except.ok.inj (hd.symm.trans hc)
  have hnone : ∀ path e, ¬ s.Indexed objects p path e := by
    rintro path e ⟨hpath, hi⟩
    rw [hstem, String.empty_append] at hpath
    rw [hstem] at hi
    refine not_indexed_of_whole_keys h ?_ (fun path e hpath hi => hcovers.file ?_) hbelow hpath hi
    · intro he
      have hlast := Store.getLast?_normalKey (Store.getLast?_directory p)
      rw [he] at hlast
      cases hlast
    · rw [Indexed, hstem, String.empty_append]
      exact ⟨hpath, hi⟩
  exact hcovers.eq_empty hnone

/-! ## Slashes at the front -/

/-- A slash at the end of the prefix changes nothing. The catalog holds what is listed below the directory of the index,
at its path below that directory if the directory is in normal form, and at its whole key if not. So a slash at the
front changes nothing, and paths are what follows the normal form of the directory, only if both catalogs are empty. -/
theorem front_slash_counts (h : s.Presents objects) (p : String) :
    s.catalogAt (p ++ "/") = s.catalogAt p ∧
    (∃ c, s.catalogAt p = .ok c ∧ c.Covers (s.Indexed objects p)) ∧
    ((s.catalogAt ("/" ++ p) = s.catalogAt p ∧
        ∃ c, s.catalogAt p = .ok c ∧ ∀ path e, c.get? path = some e → e.directory = false →
          s.Indexes objects (Store.normalKey (Index.directory p)) path e) ↔
      s.catalogAt p = .ok .empty ∧ s.catalogAt ("/" ++ p) = .ok .empty) := by
  refine ⟨?_, catalogAt_covers h p, ?_, ?_⟩
  · rw [catalogAt, Index.directory_append_slash, catalogAt]
  · rintro ⟨hsame, c, hc, hbelow⟩
    have hempty : c = .empty := by
      rcases Index.stem_cases p with ⟨hnormal, -⟩ | ⟨-, hstem⟩
      · have hdirectory := Index.directory_slash_append hnormal
        refine empty_of_whole_keys h (Index.stem_slash_append hnormal) (hsame.trans hc) ?_
        rwa [hdirectory, Store.normalKey_slash_append hnormal, ← Store.normalKey_eq_self hnormal]
      · exact empty_of_whole_keys h hstem hc hbelow
    subst hempty
    exact ⟨hc, hsame.trans hc⟩
  · rintro ⟨hc, hslash⟩
    exact ⟨hslash.trans hc.symm, .empty, hc, fun path e hget => by cases hget⟩

def oneIndexed : Store.Memory :=
  .insert ∅ "team/index/a.txt" (Text.Utf8.encode "object=team/objects/a\nsize=1\nmtime=1\n")

theorem front_slash_counts_oneIndexed :
    oneIndexed.store.Presents oneIndexed ∧ oneIndexed.store.catalogAt "/team/" = oneIndexed.store.catalogAt "/team" ∧
      ¬ (oneIndexed.store.catalogAt "/team" = oneIndexed.store.catalogAt "team" ∧
        ∃ c, oneIndexed.store.catalogAt "team" = .ok c ∧ ∀ path e, c.get? path = some e → e.directory = false →
          oneIndexed.store.Indexes oneIndexed (Store.normalKey (Index.directory "team")) path e) := by
  have hpresents : oneIndexed.store.Presents oneIndexed := Store.Memory.presents (by decide +kernel)
  refine ⟨hpresents, (front_slash_counts hpresents "/team").1, fun hclaim => ?_⟩
  have hempty := ((front_slash_counts hpresents "team").2.2.1 hclaim).1
  revert hempty
  decide +kernel

/-- The same index, asked for with a slash in front: the one file is taken for another. -/
theorem front_slash_misplaces :
    oneIndexed.store.catalogAt "team" = .ok (.ofList [⟨"a.txt", "team/objects/a", 1, 1, false⟩]) ∧
      oneIndexed.store.catalogAt "team/" = .ok (.ofList [⟨"a.txt", "team/objects/a", 1, 1, false⟩]) ∧
      oneIndexed.store.catalogAt "/team" = .ok (.ofList [⟨"team/index/a.txt", "team/objects/a", 1, 1, false⟩]) ∧
      oneIndexed.store.catalogAt "/team" ≠ oneIndexed.store.catalogAt "team" := by
  decide +kernel

end ObjectStore

end OnDemand
