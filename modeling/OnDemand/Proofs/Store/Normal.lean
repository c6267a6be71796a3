import Mathlib.Data.List.Chain
import Mathlib.Data.List.DropRight
import OnDemand.Catalog.Index
import OnDemand.Proofs.Path.Joining
import OnDemand.Store.Key

/-!
# Keys in normal form

A key in normal form is left as it is by the normalisation of keys. The place of an index below a prefix is in normal
form if the prefix is, up to slashes at its end.
-/

namespace OnDemand

namespace Text

variable {p : Char → Bool} {s : List Char}

theorem dropWhile_of_head? (h : ∀ c ∈ s.head?, p c = false) : s.dropWhile p = s := by
  cases s with
  | nil => rfl
  | cons c rest => exact List.dropWhile_cons_of_neg (by simp [h c rfl])

/-- What is left by dropping from the front ends as before. -/
theorem getLast?_dropWhile {c : Char} (h : (s.dropWhile p).getLast? = some c) : s.getLast? = some c := by
  obtain ⟨front, hfront⟩ := List.dropWhile_suffix (l := s) p
  rw [← hfront, List.getLast?_append, h, Option.some_or]

theorem trimBy_eq_self (hfront : ∀ c ∈ s.head?, p c = false) (hback : ∀ c ∈ s.getLast?, p c = false) :
    trimBy p s = s := by
  rw [trimBy, dropWhile_of_head? hfront, dropWhile_of_head?, List.reverse_reverse]
  rwa [List.head?_reverse]

/-! ## Pieces between slashes -/

theorem splitOn_cons_slash (rest : List Char) : ('/' :: rest).splitOn '/' = [] :: rest.splitOn '/' := by
  rw [← splitBy_eq_splitOn, splitBy, splitBy_eq_splitOn]
  rfl

theorem splitOn_cons_of_ne {c : Char} (h : c ≠ '/') (rest : List Char) :
    ∃ piece, (c :: rest).splitOn '/' = (c :: piece) :: (rest.splitOn '/').tail := by
  rw [← splitBy_eq_splitOn, ← splitBy_eq_splitOn, splitBy, if_neg (by simpa using h)]
  cases splitBy (· = '/') rest with
  | nil => exact ⟨[], rfl⟩
  | cons piece pieces => exact ⟨piece, rfl⟩

/-- Where no two slashes meet, there is something after every slash but one at the end. -/
theorem nil_not_mem_tail_splitOn (hback : s.getLast? ≠ some '/') (hsingle : s.IsChain fun a b => a = '/' → b ≠ '/') :
    [] ∉ (s.splitOn '/').tail := by
  induction s with
  | nil => simp
  | cons c rest ih =>
    have htail := ih (fun he => hback (by simp [List.getLast?_cons, he])) (List.isChain_of_isChain_cons hsingle)
    by_cases hc : c = '/'
    · subst hc
      rw [splitOn_cons_slash, List.tail_cons]
      cases rest with
      | nil => exact absurd rfl hback
      | cons d rest =>
        obtain ⟨piece, hpieces⟩ := splitOn_cons_of_ne ((List.isChain_cons_cons.1 hsingle).1 rfl) rest
        rw [hpieces] at htail ⊢
        simpa using htail
    · obtain ⟨piece, hpieces⟩ := splitOn_cons_of_ne hc rest
      rwa [hpieces]

theorem nil_not_mem_splitOn (hne : s ≠ []) (hfront : s.head? ≠ some '/') (hback : s.getLast? ≠ some '/')
    (hsingle : s.IsChain fun a b => a = '/' → b ≠ '/') : [] ∉ s.splitOn '/' := by
  cases s with
  | nil => exact absurd rfl hne
  | cons c rest =>
    obtain ⟨piece, hpieces⟩ := splitOn_cons_of_ne (fun he => hfront (congrArg some he)) rest
    have htail := nil_not_mem_tail_splitOn hback hsingle
    rw [hpieces] at htail ⊢
    simpa using htail

end Text

namespace Store

variable {key : String}

/-- No white space around the key, no slash at the front, no two slashes in a row. -/
structure IsNormal (key : String) : Prop where
  nonempty : key.toList ≠ []
  front : ∀ c ∈ key.toList.head?, Text.isBlank c = false ∧ c ≠ '/'
  back : ∀ c ∈ key.toList.getLast?, Text.isBlank c = false
  single : key.toList.IsChain fun a b => a = '/' → b ≠ '/'

theorem isNormal_iff : IsNormal key ↔
    key.toList ≠ [] ∧ key.toList.head?.all (fun c => !Text.isBlank c && c != '/') = true ∧
      key.toList.getLast?.all (fun c => !Text.isBlank c) = true ∧ key.toList.IsChain fun a b => a = '/' → b ≠ '/' := by
  simp only [Option.all_eq_true, Bool.and_eq_true, Bool.not_eq_true', bne_iff_ne]
  constructor
  · exact fun h => ⟨h.nonempty, h.front, h.back, h.single⟩
  · rintro ⟨hne, hfront, hback, hsingle⟩
    exact ⟨hne, hfront, hback, hsingle⟩

instance (key : String) : Decidable (IsNormal key) := decidable_of_iff _ isNormal_iff.symm

theorem intercalate_pieces {s : List Char} (hne : s ≠ []) (hfront : s.head? ≠ some '/') (hback : s.getLast? ≠ some '/')
    (hsingle : s.IsChain fun a b => a = '/' → b ≠ '/') :
    ['/'].intercalate ((s.splitOn '/').filter (· ≠ [])) = s := by
  have hpieces : (s.splitOn '/').filter (· ≠ []) = s.splitOn '/' :=
    List.filter_eq_self.2 fun piece hpiece => decide_eq_true fun he =>
      Text.nil_not_mem_splitOn hne hfront hback hsingle (he ▸ hpiece)
  rw [hpieces, List.intercalate_splitOn]

-- A slash at the end makes an empty last piece, which is left out, and the slash is put back.
theorem IsNormal.intercalate_pieces (h : IsNormal key) :
    ['/'].intercalate ((Text.splitBy (· = '/') key.toList).filter (· ≠ [])) =
      if key.toList.getLast? = some '/' then key.toList.dropLast else key.toList := by
  have hfront : key.toList.head? ≠ some '/' := fun he => (h.front _ he).2 rfl
  rw [Text.splitBy_eq_splitOn]
  split
  · rename_i hslash
    obtain ⟨init, hinit⟩ := List.getLast?_eq_some_iff.1 hslash
    have hchain := h.single
    rw [hinit, List.isChain_append] at hchain
    have hne : init ≠ [] := by
      rintro rfl
      exact hfront (by rw [hinit]; rfl)
    have hpieces : (key.toList.splitOn '/').filter (· ≠ []) = (init.splitOn '/').filter (· ≠ []) := by
      rw [hinit, List.splitOn_append_cons_self, List.splitOn_nil, List.filter_append]
      simp
    rw [hpieces, hinit, List.dropLast_concat]
    apply Store.intercalate_pieces hne
    · rwa [hinit, List.head?_append_of_ne_nil _ hne] at hfront
    · exact fun he => hchain.2.2 _ he '/' rfl rfl rfl
    · exact hchain.1
  · rename_i hslash
    exact Store.intercalate_pieces h.nonempty hfront hslash h.single

/-- A text with `key` between white space and, in front, slashes becomes `key`. -/
theorem normalKey_eq {s : String} (h : IsNormal key)
    (hs : (Text.trimBy Text.isBlank s.toList).dropWhile (· = '/') = key.toList) : normalKey s = key := by
  simp only [normalKey, hs, if_neg h.nonempty, h.intercalate_pieces]
  split
  · rename_i hslash
    obtain ⟨init, hinit⟩ := List.getLast?_eq_some_iff.1 hslash
    rw [hinit, List.dropLast_concat, ← hinit, String.ofList_toList]
  · exact String.ofList_toList

theorem normalKey_eq_self (h : IsNormal key) : normalKey key = key := by
  apply normalKey_eq h
  rw [Text.trimBy_eq_self (fun c hc => (h.front c hc).1) h.back]
  exact Text.dropWhile_of_head? fun c hc => decide_eq_false (h.front c hc).2

theorem normalKey_slash_append (h : IsNormal key) : normalKey ("/" ++ key) = key := by
  have htext : ("/" ++ key).toList = '/' :: key.toList := by rw [String.toList_append]; rfl
  apply normalKey_eq h
  rw [htext, Text.trimBy_eq_self]
  · rw [List.dropWhile_cons_of_pos (by simp)]
    exact Text.dropWhile_of_head? fun c hc => decide_eq_false (h.front c hc).2
  · intro c hc
    cases hc
    rfl
  · intro c hc
    rw [List.getLast?_cons] at hc
    cases hlast : key.toList.getLast? with
    | none => exact absurd (List.getLast?_eq_none_iff.1 hlast) h.nonempty
    | some d =>
      rw [hlast] at hc
      exact h.back c (hlast.trans hc)

/-- A slash at the end stays. -/
theorem getLast?_normalKey (h : key.toList.getLast? = some '/') : (normalKey key).toList.getLast? = some '/' := by
  have hblank : Text.trimBy Text.isBlank key.toList = key.toList.dropWhile Text.isBlank := by
    rw [Text.trimBy, Text.dropWhile_of_head?, List.reverse_reverse]
    intro c hc
    rw [List.head?_reverse] at hc
    obtain rfl : c = '/' := Option.some.inj ((Text.getLast?_dropWhile hc).symm.trans h)
    rfl
  unfold normalKey
  rw [hblank]
  dsimp only
  split
  · rfl
  · rename_i hne
    obtain ⟨c, hc⟩ := Option.ne_none_iff_exists'.1 (mt List.getLast?_eq_none_iff.1 hne)
    obtain rfl : c = '/' :=
      Option.some.inj ((Text.getLast?_dropWhile (Text.getLast?_dropWhile hc)).symm.trans h)
    rw [if_pos hc, String.toList_ofList, List.getLast?_concat]

/-! ## The place of an index -/

/-- What a key in normal form starts with is in normal form, if it does not end in white space. -/
theorem IsNormal.of_start {front : String} (h : IsNormal key) (hfront : front.toList <+: key.toList)
    (hne : front.toList ≠ []) (hback : ∀ c ∈ front.toList.getLast?, Text.isBlank c = false) : IsNormal front := by
  obtain ⟨rest, hrest⟩ := hfront
  have hsingle := h.single
  rw [← hrest, List.isChain_append] at hsingle
  refine ⟨hne, fun c hc => h.front c ?_, hback, hsingle.1⟩
  rwa [← hrest, List.head?_append_of_ne_nil _ hne]

def IsNormalUpToSlashes (text : String) : Prop :=
  ∃ key n, IsNormal key ∧ text.toList = key.toList ++ List.replicate n '/'

theorem toList_directory (text : String) :
    (Index.directory text).toList = text.toList.rdropWhile (· = '/') ++ "/index/".toList := by
  rw [Index.directory, String.toList_append, String.toList_ofList]
  rfl

theorem getLast?_directory (text : String) : (Index.directory text).toList.getLast? = some '/' := by
  rw [toList_directory, List.getLast?_append]
  rfl

theorem rdropWhile_slashes (s : List Char) (n : Nat) :
    (s ++ List.replicate n '/').rdropWhile (· = '/') = s.rdropWhile (· = '/') := by
  induction n with
  | zero => simp
  | succ n ih => rw [List.replicate_succ', ← List.append_assoc, List.rdropWhile_concat, if_pos (by simp), ih]

theorem isNormal_directory {text : String} (h : IsNormalUpToSlashes text) : IsNormal (Index.directory text) := by
  obtain ⟨key, n, hkey, htext⟩ := h
  have hdirectory := toList_directory text
  rw [htext, rdropWhile_slashes] at hdirectory
  obtain ⟨rest, hrest⟩ := List.rdropWhile_prefix (· = '/') key.toList
  have hne : key.toList.rdropWhile (· = '/') ≠ [] := by
    intro he
    obtain ⟨c, front, hfront⟩ := List.exists_cons_of_ne_nil hkey.nonempty
    have hslash : c = '/' := of_decide_eq_true (List.rdropWhile_eq_nil_iff.1 he c (hfront ▸ List.mem_cons_self))
    exact (hkey.front c (by rw [hfront]; rfl)).2 hslash
  constructor
  · rw [hdirectory]
    simp
  · rw [hdirectory, List.head?_append_of_ne_nil _ hne]
    intro c hc
    apply hkey.front
    rwa [← hrest, List.head?_append_of_ne_nil _ hne]
  · rw [getLast?_directory]
    intro c hc
    cases hc
    rfl
  · rw [hdirectory, List.isChain_append]
    have hsingle := hkey.single
    rw [← hrest, List.isChain_append] at hsingle
    refine ⟨hsingle.1, by decide, fun c hc d hd hslash => ?_⟩
    have hlast := List.rdropWhile_last_not (· = '/') key.toList hne
    rw [List.getLast?_eq_some_getLast hne] at hc
    exact absurd (decide_eq_true ((Option.some.inj hc).trans hslash)) hlast

end Store

end OnDemand
