import Mathlib.Data.List.TakeWhile
import OnDemand.Text.Utf16

/-!
# Wide text and back

A character is one unit that is no surrogate, or a pair of a high and a low one, and decoding reads either back. So what
is well formed is the encoding of what it decodes to; and since only the character NUL has a zero among its units, the
first zero of wide text is the first NUL of the text, or the end.
-/

namespace OnDemand.Text.Utf16

variable {c : Char} {u v : UInt16} {w : List UInt16}

def isSurrogate (u : UInt16) : Bool := isHigh u || isLow u

/-- Every surrogate stands in a pair, the high one first. -/
inductive WellFormed : List UInt16 → Prop where
  | nil : WellFormed []
  | unit {u : UInt16} {w : List UInt16} (hu : isSurrogate u = false) (h : WellFormed w) : WellFormed (u :: w)
  | pair {u v : UInt16} {w : List UInt16} (hu : isHigh u = true) (hv : isLow v = true) (h : WellFormed w) :
      WellFormed (u :: v :: w)

theorem isHigh_iff : isHigh u = true ↔ 0xD800 ≤ u.toNat ∧ u.toNat < 0xDC00 := by
  simp only [isHigh, Bool.and_eq_true, decide_eq_true_eq]

theorem isLow_iff : isLow u = true ↔ 0xDC00 ≤ u.toNat ∧ u.toNat < 0xE000 := by
  simp only [isLow, Bool.and_eq_true, decide_eq_true_eq]

theorem isSurrogate_iff : isSurrogate u = true ↔ 0xD800 ≤ u.toNat ∧ u.toNat < 0xE000 := by
  rw [isSurrogate, Bool.or_eq_true, isHigh_iff, isLow_iff]
  omega

theorem isHigh_of_not_isSurrogate (h : isSurrogate u = false) : isHigh u = false :=
  (Bool.or_eq_false_iff.1 h).1

theorem ne_zero_of_isSurrogate (h : isSurrogate u = true) : u ≠ 0 := by
  rintro rfl
  exact absurd h (by decide)

theorem isSurrogate_of_isHigh (h : isHigh u = true) : isSurrogate u = true := by
  rw [isSurrogate, h, Bool.true_or]

theorem isSurrogate_of_isLow (h : isLow u = true) : isSurrogate u = true := by
  rw [isSurrogate, h, Bool.or_true]

/-! ## Characters -/

theorem toNat_ofNat {n : Nat} (h : n.isValidChar) : (Char.ofNat n).toNat = n := by
  rw [Char.ofNat, dif_pos h]
  rfl

theorem single_of_not_isSurrogate (h : isSurrogate u = false) : single u = Char.ofNat u.toNat := by
  rw [isSurrogate] at h
  rw [single, h]
  rfl

theorem toNat_single (h : isSurrogate u = false) : (single u).toNat = u.toNat := by
  have hvalid : u.toNat.isValidChar := by
    have hnot := mt isSurrogate_iff.2 (Bool.eq_false_iff.1 h)
    have hlt := u.toNat_lt
    unfold Nat.isValidChar
    omega
  rw [single_of_not_isSurrogate h, toNat_ofNat hvalid]

theorem toNat_pair (hu : isHigh u = true) (hv : isLow v = true) :
    (pair u v).toNat = 0x10000 + (u.toNat - 0xD800) * 0x400 + (v.toNat - 0xDC00) := by
  rw [isHigh_iff] at hu
  rw [isLow_iff] at hv
  refine toNat_ofNat ?_
  unfold Nat.isValidChar
  omega

theorem encodeChar_single (h : isSurrogate u = false) : encodeChar (single u) = [u] := by
  have hval : (single u).val.toNat = u.toNat := toNat_single h
  have hlt : u.toNat < 0x10000 := u.toNat_lt
  rw [encodeChar, hval, if_pos hlt]
  exact congrArg (fun x => [x]) UInt16.ofNat_toNat

theorem encodeChar_pair (hu : isHigh u = true) (hv : isLow v = true) : encodeChar (pair u v) = [u, v] := by
  have hval : (pair u v).val.toNat = _ := toNat_pair hu hv
  rw [isHigh_iff] at hu
  rw [isLow_iff] at hv
  have hhigh : 0xD800 + ((pair u v).val.toNat - 0x10000) / 0x400 = u.toNat := by omega
  have hlow : 0xDC00 + ((pair u v).val.toNat - 0x10000) % 0x400 = v.toNat := by omega
  have hge : ¬(pair u v).val.toNat < 0x10000 := by omega
  simp only [encodeChar, if_neg hge, hhigh, hlow]
  rw [show u.toNat.toUInt16 = u from UInt16.ofNat_toNat, show v.toNat.toUInt16 = v from UInt16.ofNat_toNat]

/-- A character is encoded by a unit that is no surrogate, or by a pair of surrogates, of which it is the character. -/
theorem encodeChar_cases (c : Char) :
    (∃ u, isSurrogate u = false ∧ single u = c ∧ encodeChar c = [u]) ∨
      ∃ u v, isHigh u = true ∧ isLow v = true ∧ pair u v = c ∧ encodeChar c = [u, v] := by
  have hvalid : c.toNat.isValidChar := c.valid
  unfold Nat.isValidChar at hvalid
  by_cases hsmall : c.toNat < 0x10000
  · have hunit : (UInt16.ofNat c.toNat).toNat = c.toNat := UInt16.toNat_ofNat_of_lt' hsmall
    have hu : isSurrogate (UInt16.ofNat c.toNat) = false := by
      rw [← Bool.not_eq_true, isSurrogate_iff, hunit]
      omega
    have hc : single (UInt16.ofNat c.toNat) = c := Char.toNat_inj.1 (by rw [toNat_single hu, hunit])
    exact .inl ⟨_, hu, hc, (congrArg encodeChar hc).symm.trans (encodeChar_single hu)⟩
  · let high := 0xD800 + (c.toNat - 0x10000) / 0x400
    let low := 0xDC00 + (c.toNat - 0x10000) % 0x400
    have hhigh : (UInt16.ofNat high).toNat = high := UInt16.toNat_ofNat_of_lt' (by simp only [high, UInt16.size]; omega)
    have hlow : (UInt16.ofNat low).toNat = low := UInt16.toNat_ofNat_of_lt' (by simp only [low, UInt16.size]; omega)
    have hu : isHigh (UInt16.ofNat high) = true := by
      rw [isHigh_iff, hhigh]
      omega
    have hv : isLow (UInt16.ofNat low) = true := by
      rw [isLow_iff, hlow]
      omega
    have hc : pair (UInt16.ofNat high) (UInt16.ofNat low) = c := Char.toNat_inj.1 (by
      rw [toNat_pair hu hv, hhigh, hlow]
      omega)
    exact .inr ⟨_, _, hu, hv, hc, (congrArg encodeChar hc).symm.trans (encodeChar_pair hu hv)⟩

/-! ## Texts -/

theorem decode_unit (h : isSurrogate u = false) (w : List UInt16) : decode (u :: w) = single u :: decode w := by
  cases w with
  | nil => rfl
  | cons v w => simp only [decode, isHigh_of_not_isSurrogate h, Bool.false_and, Bool.false_eq_true, if_false]

theorem decode_pair (hu : isHigh u = true) (hv : isLow v = true) (w : List UInt16) :
    decode (u :: v :: w) = pair u v :: decode w := by
  simp only [decode, hu, hv, Bool.and_self, if_true]

theorem decode_encodeChar_append (c : Char) (w : List UInt16) : decode (encodeChar c ++ w) = c :: decode w := by
  rcases encodeChar_cases c with ⟨u, hu, hc, hunits⟩ | ⟨u, v, hu, hv, hc, hunits⟩
  · rw [hunits, ← hc]
    exact decode_unit hu w
  · rw [hunits, ← hc]
    exact decode_pair hu hv w

theorem encode_cons (c : Char) (s : List Char) : encode (c :: s) = encodeChar c ++ encode s := rfl

theorem decode_encode (s : List Char) : decode (encode s) = s := by
  induction s with
  | nil => rfl
  | cons c s ih => rw [encode_cons, decode_encodeChar_append, ih]

theorem wellFormed_encode (s : List Char) : WellFormed (encode s) := by
  induction s with
  | nil => exact .nil
  | cons c s ih =>
    rw [encode_cons]
    rcases encodeChar_cases c with ⟨u, hu, -, hunits⟩ | ⟨u, v, hu, hv, -, hunits⟩
    · rw [hunits]
      exact .unit hu ih
    · rw [hunits]
      exact .pair hu hv ih

theorem WellFormed.encode_decode (h : WellFormed w) : encode (decode w) = w := by
  induction h with
  | nil => rfl
  | unit hu h ih =>
    rw [decode_unit hu, encode_cons, encodeChar_single hu, ih, List.singleton_append]
  | pair hu hv h ih =>
    rw [decode_pair hu hv, encode_cons, encodeChar_pair hu hv, ih]
    rfl

theorem wellFormed_iff : WellFormed w ↔ encode (decode w) = w :=
  ⟨WellFormed.encode_decode, fun h => h ▸ wellFormed_encode _⟩

/-! ## Zeros -/

theorem zero_not_mem_encodeChar (h : c ≠ '\x00') : 0 ∉ encodeChar c := by
  rcases encodeChar_cases c with ⟨u, hu, hc, hunits⟩ | ⟨u, v, hu, hv, -, hunits⟩
  · rw [hunits, List.mem_singleton]
    rintro rfl
    exact h hc.symm
  · have hu0 := ne_zero_of_isSurrogate (isSurrogate_of_isHigh hu)
    have hv0 := ne_zero_of_isSurrogate (isSurrogate_of_isLow hv)
    simp only [hunits, List.mem_cons, List.not_mem_nil, or_false, not_or]
    exact ⟨hu0.symm, hv0.symm⟩

theorem count_zero_encode (s : List Char) : (encode s).count 0 = s.count '\x00' := by
  induction s with
  | nil => rfl
  | cons c s ih =>
    rw [encode_cons, List.count_append, ih, List.count_cons, Nat.add_comm]
    by_cases hc : c = '\x00'
    · subst hc
      rfl
    · rw [List.count_eq_zero.2 (zero_not_mem_encodeChar hc), if_neg (by simpa using hc)]

/-- Up to its first zero wide text is the encoding of the text up to its first NUL. -/
theorem takeWhile_encode (s : List Char) :
    (encode s ++ [0]).takeWhile (· ≠ 0) = encode (s.takeWhile (· ≠ '\x00')) := by
  induction s with
  | nil => rfl
  | cons c s ih =>
    rw [encode_cons, List.append_assoc]
    by_cases hc : c = '\x00'
    · subst hc
      rfl
    · have hunits : ∀ u ∈ encodeChar c, decide (u ≠ 0) = true := fun u hu =>
        decide_eq_true fun h0 => zero_not_mem_encodeChar hc (h0 ▸ hu)
      rw [List.takeWhile_append_of_pos hunits, ih, List.takeWhile_cons_of_pos (by simpa using hc)]
      rfl

theorem single_ne_nul (h : u ≠ 0) : single u ≠ '\x00' := by
  cases hu : isSurrogate u with
  | true =>
    have hreplaced : single u = '\uFFFD' := if_pos hu
    rw [hreplaced]
    decide
  | false =>
    intro hnul
    have hzero : u.toNat = 0 := by rw [← toNat_single hu, hnul]; rfl
    exact h (UInt16.toNat_inj.1 hzero)

theorem pair_ne_nul (hu : isHigh u = true) (hv : isLow v = true) : pair u v ≠ '\x00' := by
  intro hnul
  have hvalue := toNat_pair hu hv
  have hzero : (pair u v).toNat = 0 := by rw [hnul]; rfl
  omega

theorem nul_not_mem_decode (h : 0 ∉ w) : '\x00' ∉ decode w := by
  induction w using decode.induct with
  | case1 => exact List.not_mem_nil
  | case2 u =>
    rw [decode, List.mem_singleton]
    exact (single_ne_nul (Ne.symm (List.ne_of_not_mem_cons h))).symm
  | case3 u v w hpair ih =>
    obtain ⟨hu, hv⟩ := Bool.and_eq_true_iff.1 hpair
    have hrest : 0 ∉ w := fun hw => h (List.mem_cons_of_mem _ (List.mem_cons_of_mem _ hw))
    rw [decode_pair hu hv, List.mem_cons, not_or]
    exact ⟨(pair_ne_nul hu hv).symm, ih hrest⟩
  | case4 u v w hpair ih =>
    rw [decode, if_neg hpair, List.mem_cons, not_or]
    exact ⟨(single_ne_nul (Ne.symm (List.ne_of_not_mem_cons h))).symm, ih (List.not_mem_of_not_mem_cons h)⟩

/-! ## Terminated text -/

theorem zero_not_mem_front (w : List UInt16) : 0 ∉ w.takeWhile (· ≠ 0) := fun h => by
  simpa using List.mem_takeWhile_imp h

theorem decodeTerminated_encodeTerminated (s : String) :
    decodeTerminated (encodeTerminated s) = String.ofList (s.toList.takeWhile (· ≠ '\x00')) := by
  rw [decodeTerminated, encodeTerminated, takeWhile_encode, decode_encode]

theorem toList_decodeTerminated (w : List UInt16) : (decodeTerminated w).toList = decode (w.takeWhile (· ≠ 0)) :=
  String.toList_ofList

theorem nul_not_mem_decodeTerminated (w : List UInt16) : '\x00' ∉ (decodeTerminated w).toList := by
  rw [toList_decodeTerminated]
  exact nul_not_mem_decode (zero_not_mem_front w)

/-- Text comes back from wide text up to its first NUL, and wide text has a single zero, at its end, exactly if there is
none in the text. Wide text comes back from text exactly if what stands before its first zero is well formed, and whatever
surrogates stand alone in it, reading it once more changes nothing. -/
theorem wide_text_round_trips :
    (∀ s : String,
      decodeTerminated (encodeTerminated s) = String.ofList (s.toList.takeWhile (· ≠ '\x00')) ∧
      (encodeTerminated s).getLast? = some 0 ∧ ((encodeTerminated s).count 0 = 1 ↔ '\x00' ∉ s.toList)) ∧
    ∀ w : List UInt16,
      (encodeTerminated (decodeTerminated w) = w.takeWhile (· ≠ 0) ++ [0] ↔ WellFormed (w.takeWhile (· ≠ 0))) ∧
      decodeTerminated (encodeTerminated (decodeTerminated w)) = decodeTerminated w := by
  refine ⟨fun s => ⟨decodeTerminated_encodeTerminated s, List.getLast?_concat, ?_⟩, fun w => ⟨?_, ?_⟩⟩
  · rw [encodeTerminated, List.count_append, count_zero_encode, List.count_singleton_self, ← List.count_eq_zero]
    omega
  · rw [encodeTerminated, toList_decodeTerminated, List.append_cancel_right_eq, wellFormed_iff]
  · have hfront : (decodeTerminated w).toList.takeWhile (· ≠ '\x00') = (decodeTerminated w).toList :=
      List.takeWhile_eq_self_iff.2 fun c hc => decide_eq_true fun hnul => nul_not_mem_decodeTerminated w (hnul ▸ hc)
    rw [decodeTerminated_encodeTerminated, hfront, String.ofList_toList]

/-- A high surrogate before a pair, and a low one before the zero. -/
example : decodeTerminated [0xD83D, 0xD83D, 0xDE00, 0xDE00, 0, 0x61] = "\uFFFD😀\uFFFD" := by decide

end OnDemand.Text.Utf16
