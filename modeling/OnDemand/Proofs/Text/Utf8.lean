import OnDemand.Identity

/-!
# UTF-8 and back

The first byte of a character tells how many bytes follow and between which bounds the next one lies, and the bytes of
every character keep to that. So decoding reads each character back, and an identity spells the one text that it encodes.
-/

namespace OnDemand.Text.Utf8

variable {a b c d : UInt8} {p : Pending}

/-! ## First bytes -/

theorem lead_single (h : b.toNat < 0x80) : lead b = .single (Char.ofNat b.toNat) := if_pos h

theorem lead_two (hlo : 0xC2 ≤ b.toNat) (hhi : b.toNat < 0xE0) :
    lead b = .pending ⟨1, 0x80, 0xBF, b.toNat - 0xC0⟩ := by
  unfold lead
  rw [if_neg (by omega), if_neg (by omega), if_pos hhi]

/-- The bounds leave out what two bytes would do for, and the surrogates. -/
theorem lead_three (hlo : 0xE0 ≤ b.toNat) (hhi : b.toNat < 0xF0) :
    lead b = .pending ⟨2, if b.toNat = 0xE0 then 0xA0 else 0x80, if b.toNat = 0xED then 0x9F else 0xBF,
      b.toNat - 0xE0⟩ := by
  unfold lead
  rw [if_neg (by omega), if_neg (by omega), if_neg (by omega)]
  by_cases h0 : b.toNat = 0xE0
  · simp [h0]
  · by_cases hd : b.toNat = 0xED
    · simp [hd]
    · simp [h0, hd, hhi]

/-- The bounds leave out what three bytes would do for, and what is beyond the last character. -/
theorem lead_four (hlo : 0xF0 ≤ b.toNat) (hhi : b.toNat < 0xF5) :
    lead b = .pending ⟨3, if b.toNat = 0xF0 then 0x90 else 0x80, if b.toNat = 0xF4 then 0x8F else 0xBF,
      b.toNat - 0xF0⟩ := by
  unfold lead
  rw [if_neg (by omega), if_neg (by omega), if_neg (by omega), if_neg (by omega), if_neg (by omega), if_neg (by omega)]
  by_cases h0 : b.toNat = 0xF0
  · simp [h0]
  · by_cases h4 : b.toNat = 0xF4
    · simp [h4]
    · simp [h0, h4, show b.toNat < 0xF4 by omega]

/-! ## Further bytes -/

theorem decodeFrom_last (rest : Bytes) (hneeded : p.needed = 1) (hb : p.low ≤ b.toNat ∧ b.toNat ≤ p.high) :
    decodeFrom (some p) (b :: rest) = Char.ofNat (p.value * 64 + (b.toNat - 0x80)) :: decodeFrom none rest := by
  rw [decodeFrom, if_pos hb]
  simp [hneeded]

theorem decodeFrom_further (rest : Bytes) (hneeded : 1 < p.needed) (hb : p.low ≤ b.toNat ∧ b.toNat ≤ p.high) :
    decodeFrom (some p) (b :: rest) =
      decodeFrom (some ⟨p.needed - 1, 0x80, 0xBF, p.value * 64 + (b.toNat - 0x80)⟩) rest := by
  rw [decodeFrom, if_pos hb]
  simp [Nat.not_le.2 hneeded]

/-! ## The bytes of a character -/

theorem decodeFrom_one (rest : Bytes) (ha : a.toNat < 0x80) :
    decodeFrom none (a :: rest) = Char.ofNat a.toNat :: decodeFrom none rest := by
  rw [decodeFrom, lead_single ha]

theorem decodeFrom_two (rest : Bytes) (ha : 0xC2 ≤ a.toNat ∧ a.toNat < 0xE0) (hb : 0x80 ≤ b.toNat ∧ b.toNat ≤ 0xBF) :
    decodeFrom none (a :: b :: rest) =
      Char.ofNat ((a.toNat - 0xC0) * 64 + (b.toNat - 0x80)) :: decodeFrom none rest := by
  rw [decodeFrom, lead_two ha.1 ha.2]
  exact decodeFrom_last rest rfl hb

theorem decodeFrom_three (rest : Bytes) (ha : 0xE0 ≤ a.toNat ∧ a.toNat < 0xF0)
    (hb : (if a.toNat = 0xE0 then 0xA0 else 0x80) ≤ b.toNat ∧ b.toNat ≤ if a.toNat = 0xED then 0x9F else 0xBF)
    (hc : 0x80 ≤ c.toNat ∧ c.toNat ≤ 0xBF) :
    decodeFrom none (a :: b :: c :: rest) =
      Char.ofNat (((a.toNat - 0xE0) * 64 + (b.toNat - 0x80)) * 64 + (c.toNat - 0x80)) :: decodeFrom none rest := by
  rw [decodeFrom, lead_three ha.1 ha.2]
  exact (decodeFrom_further _ (by simp) hb).trans (decodeFrom_last rest rfl hc)

theorem decodeFrom_four (rest : Bytes) (ha : 0xF0 ≤ a.toNat ∧ a.toNat < 0xF5)
    (hb : (if a.toNat = 0xF0 then 0x90 else 0x80) ≤ b.toNat ∧ b.toNat ≤ if a.toNat = 0xF4 then 0x8F else 0xBF)
    (hc : 0x80 ≤ c.toNat ∧ c.toNat ≤ 0xBF) (hd : 0x80 ≤ d.toNat ∧ d.toNat ≤ 0xBF) :
    decodeFrom none (a :: b :: c :: d :: rest) =
      Char.ofNat ((((a.toNat - 0xF0) * 64 + (b.toNat - 0x80)) * 64 + (c.toNat - 0x80)) * 64 + (d.toNat - 0x80)) ::
        decodeFrom none rest := by
  rw [decodeFrom, lead_four ha.1 ha.2]
  exact ((decodeFrom_further _ (by simp) hb).trans (decodeFrom_further _ (by simp) hc)).trans
    (decodeFrom_last rest rfl hd)

theorem decodeFrom_encodeChar_append (c : Char) (rest : Bytes) :
    decodeFrom none (String.utf8EncodeChar c ++ rest) = c :: decodeFrom none rest := by
  have hvalid : c.toNat.isValidChar := c.valid
  unfold Nat.isValidChar at hvalid
  have hchar {n : Nat} (h : n = c.toNat) : Char.ofNat n = c := h ▸ Char.ofNat_toNat c
  have hbyte {n : Nat} (h : n < 256) : (UInt8.ofNat n).toNat = n := UInt8.toNat_ofNat_of_lt' h
  have hval : c.val.toNat = c.toNat := rfl
  simp only [String.utf8EncodeChar, hval]
  split
  · have h₁ := hbyte (n := c.toNat) (by omega)
    exact (decodeFrom_one rest (by omega)).trans (by rw [hchar h₁])
  split
  · have h₁ := hbyte (n := c.toNat / 64 % 32 + 192) (by omega)
    have h₂ := hbyte (n := c.toNat % 64 + 128) (by omega)
    exact (decodeFrom_two rest (by omega) (by omega)).trans (by rw [hchar (by omega)])
  split
  · have h₁ := hbyte (n := c.toNat / 4096 % 16 + 224) (by omega)
    have h₂ := hbyte (n := c.toNat / 64 % 64 + 128) (by omega)
    have h₃ := hbyte (n := c.toNat % 64 + 128) (by omega)
    exact (decodeFrom_three rest (by omega) (by constructor <;> split <;> omega) (by omega)).trans
      (by rw [hchar (by omega)])
  · have h₁ := hbyte (n := c.toNat / 262144 % 8 + 240) (by omega)
    have h₂ := hbyte (n := c.toNat / 4096 % 64 + 128) (by omega)
    have h₃ := hbyte (n := c.toNat / 64 % 64 + 128) (by omega)
    have h₄ := hbyte (n := c.toNat % 64 + 128) (by omega)
    exact (decodeFrom_four rest (by omega) (by constructor <;> split <;> omega) (by omega) (by omega)).trans
      (by rw [hchar (by omega)])

/-! ## Texts -/

theorem decodeFrom_encodeChars (s : List Char) : decodeFrom none (encodeChars s) = s := by
  induction s with
  | nil => rfl
  | cons c s ih => rw [encodeChars, List.flatMap_cons, decodeFrom_encodeChar_append, ← encodeChars, ih]

theorem decode_encode (s : String) : decode (encode s) = s := by
  rw [decode, encode, decodeFrom_encodeChars, String.ofList_toList]

theorem decode?_eq_some {bytes : Bytes} {s : String} : decode? bytes = some s ↔ bytes = encode s := by
  unfold decode?
  constructor
  · intro h
    split at h
    · rename_i hwhole
      rw [← Option.some.inj h, hwhole]
    · cases h
  · rintro rfl
    rw [decode_encode, if_pos rfl]

end OnDemand.Text.Utf8

namespace OnDemand

/-- An identity spells the one text that it is made of. -/
theorem FileIdentity.text?_eq_some {i : FileIdentity} {s : String} : i.text? = some s ↔ i = .ofText s := by
  rw [text?, Text.Utf8.decode?_eq_some]
  exact ⟨fun h => congrArg mk h, fun h => congrArg bytes h⟩

end OnDemand
