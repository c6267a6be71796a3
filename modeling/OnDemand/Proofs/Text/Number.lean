import OnDemand.Text.Blank
import OnDemand.Text.Number

/-!
# Numbers read and written

A literal is a run of decimal digits, perhaps after a sign, whose value is within bounds; reading accepts the literals and
gives their values. The decimal digits of a number within bounds are a literal of that number.
-/

namespace OnDemand.Text

variable {s : List Char} {n bound : Nat} {t : Int} {c : Char}

/-- `s` is a run of decimal digits, at least one, and their value is `n`. -/
structure Denotes (s : List Char) (n : Nat) : Prop where
  nonempty : s ≠ []
  digits : ∀ c ∈ s, c.isDigit = true
  value : Nat.ofDigitChars 10 s 0 = n

/-- Literals of the numbers below `bound`. -/
inductive UnsignedLiteral (bound : Nat) : List Char → Nat → Prop where
  | plain {s : List Char} {n : Nat} (h : Denotes s n) (hn : n < bound) : UnsignedLiteral bound s n
  | plus {s : List Char} {n : Nat} (h : Denotes s n) (hn : n < bound) : UnsignedLiteral bound ('+' :: s) n

/-- Literals of the numbers from `-bound` to `bound - 1`. -/
inductive SignedLiteral (bound : Nat) : List Char → Int → Prop where
  | unsigned {s : List Char} {n : Nat} (h : UnsignedLiteral bound s n) : SignedLiteral bound s n
  | minus {s : List Char} {n : Nat} (h : Denotes s n) (hn : n ≤ bound) : SignedLiteral bound ('-' :: s) (-(n : Int))

/-! ## Reading -/

theorem digits?_eq_some : digits? s = some n ↔ Denotes s n := by
  rw [digits?]
  split
  · rename_i h
    rw [Option.some.injEq]
    exact ⟨fun hn => ⟨h.1, List.all_eq_true.1 h.2, hn⟩, fun hs => hs.value⟩
  · rename_i h
    exact ⟨nofun, fun hs => absurd ⟨hs.nonempty, List.all_eq_true.2 hs.digits⟩ h⟩

theorem not_denotes_cons (h : c.isDigit = false) : ¬Denotes (c :: s) n := fun hs => by
  rw [hs.digits c List.mem_cons_self] at h
  cases h

theorem unsigned?_plus : unsigned? bound ('+' :: s) = some n ↔ Denotes s n ∧ n < bound := by
  rw [unsigned?, Option.filter_eq_some_iff, digits?_eq_some, decide_eq_true_eq]

theorem unsigned?_of_ne_plus (h : s.head? ≠ some '+') : unsigned? bound s = some n ↔ Denotes s n ∧ n < bound := by
  have hplain : unsigned? bound s = (digits? s).filter (· < bound) := by
    unfold unsigned?
    split
    · exact absurd rfl h
    · rfl
  rw [hplain, Option.filter_eq_some_iff, digits?_eq_some, decide_eq_true_eq]

theorem unsigned?_eq_some : unsigned? bound s = some n ↔ UnsignedLiteral bound s n := by
  constructor
  · intro h
    by_cases hplus : s.head? = some '+'
    · obtain ⟨rest, rfl⟩ := List.head?_eq_some_iff.1 hplus
      obtain ⟨hs, hn⟩ := unsigned?_plus.1 h
      exact .plus hs hn
    · obtain ⟨hs, hn⟩ := (unsigned?_of_ne_plus hplus).1 h
      exact .plain hs hn
  · rintro (⟨hs, hn⟩ | ⟨hs, hn⟩)
    · refine (unsigned?_of_ne_plus fun hplus => ?_).2 ⟨hs, hn⟩
      obtain ⟨rest, rfl⟩ := List.head?_eq_some_iff.1 hplus
      exact not_denotes_cons rfl hs
    · exact unsigned?_plus.2 ⟨hs, hn⟩

theorem signed?_minus : signed? bound ('-' :: s) = some t ↔ ∃ n : Nat, Denotes s n ∧ n ≤ bound ∧ -(n : Int) = t := by
  have hnegated : signed? bound ('-' :: s) = ((digits? s).filter (· ≤ bound)).map fun n : Nat => -(n : Int) := by
    rw [signed?]
    cases (digits? s).filter (· ≤ bound) <;> rfl
  simp only [hnegated, Option.map_eq_some_iff, Option.filter_eq_some_iff, digits?_eq_some, decide_eq_true_eq, and_assoc]

theorem signed?_of_ne_minus (h : s.head? ≠ some '-') :
    signed? bound s = some t ↔ ∃ n : Nat, UnsignedLiteral bound s n ∧ (n : Int) = t := by
  have hunsigned : signed? bound s = (unsigned? bound s).map Int.ofNat := by
    unfold signed?
    split
    · exact absurd rfl h
    · rfl
  rw [hunsigned, Option.map_eq_some_iff]
  exact exists_congr fun n => and_congr_left fun _ => unsigned?_eq_some

theorem signed?_eq_some : signed? bound s = some t ↔ SignedLiteral bound s t := by
  constructor
  · intro h
    by_cases hminus : s.head? = some '-'
    · obtain ⟨rest, rfl⟩ := List.head?_eq_some_iff.1 hminus
      obtain ⟨n, hs, hn, rfl⟩ := signed?_minus.1 h
      exact .minus hs hn
    · obtain ⟨n, hs, rfl⟩ := (signed?_of_ne_minus hminus).1 h
      exact .unsigned hs
  · rintro (hs | ⟨hs, hn⟩)
    · refine (signed?_of_ne_minus fun hminus => ?_).2 ⟨_, hs, rfl⟩
      obtain ⟨rest, rfl⟩ := List.head?_eq_some_iff.1 hminus
      cases hs with
      | plain hs => exact not_denotes_cons rfl hs
    · exact signed?_minus.2 ⟨_, hs, hn, rfl⟩

/-! ## Writing -/

theorem denotes_toDigits (n : Nat) : Denotes (Nat.toDigits 10 n) n where
  nonempty := Nat.toDigits_ne_nil
  digits _ hc := Nat.isDigit_of_mem_toDigits (by decide) (by decide) hc
  value := Nat.ofDigitChars_toDigits (by decide) (by decide)

theorem toList_toString (n : Nat) : (toString n).toList = Nat.toDigits 10 n := by
  rw [Nat.toString_eq_ofList_toDigits, String.toList_ofList]

theorem unsignedLiteral_toString (h : n < bound) : UnsignedLiteral bound (toString n).toList n := by
  rw [toList_toString]
  exact .plain (denotes_toDigits n) h

theorem toList_toString_negSucc (n : Nat) : (toString (Int.negSucc n)).toList = '-' :: Nat.toDigits 10 (n + 1) := by
  have hminus : toString (Int.negSucc n) = "-" ++ toString (n + 1) := rfl
  rw [hminus, String.toList_append, toList_toString]
  rfl

theorem signedLiteral_toString (hleast : -(bound : Int) ≤ t) (hlt : t < bound) :
    SignedLiteral bound (toString t).toList t := by
  cases t with
  | ofNat n => exact .unsigned (unsignedLiteral_toString (Int.ofNat_lt.1 hlt))
  | negSucc n =>
    rw [toList_toString_negSucc]
    exact .minus (denotes_toDigits (n + 1)) (by omega)

theorem isBlank_of_isDigit (h : c.isDigit = true) : isBlank c = false := by
  obtain ⟨hlow, hhigh⟩ := Bool.and_eq_true_iff.1 h
  have hge : 48 ≤ c.val.toNat := UInt32.le_iff_toNat_le.1 (of_decide_eq_true hlow)
  have hle : c.val.toNat ≤ 57 := UInt32.le_iff_toNat_le.1 (of_decide_eq_true hhigh)
  rw [← Bool.not_eq_true]
  simp only [isBlank, Bool.or_eq_true, Bool.and_eq_true, decide_eq_true_eq, beq_iff_eq]
  omega

theorem not_isBlank_of_signedLiteral (h : SignedLiteral bound s t) (hc : c ∈ s) : isBlank c = false := by
  cases h with
  | unsigned h =>
    cases h with
    | plain h => exact isBlank_of_isDigit (h.digits c hc)
    | plus h =>
      rcases List.mem_cons.1 hc with rfl | hc
      · rfl
      · exact isBlank_of_isDigit (h.digits c hc)
  | minus h =>
    rcases List.mem_cons.1 hc with rfl | hc
    · rfl
    · exact isBlank_of_isDigit (h.digits c hc)

end OnDemand.Text
