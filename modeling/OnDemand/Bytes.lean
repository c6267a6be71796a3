/-!
# Bytes

Content, identities and object bodies are lists of bytes. The two operations on them are the clamped
window that a ranged read returns and the splice that a received segment performs.
-/

namespace OnDemand

abbrev Bytes := List UInt8

namespace Bytes

/-- The bytes at the positions `offset ≤ i < offset + length` that exist. -/
def window (b : Bytes) (offset length : Nat) : Bytes :=
  (b.drop offset).take length

/-- Puts `data` over the bytes of `b` from `start` on. -/
def splice (b : Bytes) (start : Nat) (data : Bytes) : Bytes :=
  b.take start ++ data ++ b.drop (start + data.length)

theorem length_window (b : Bytes) (offset length : Nat) :
    (b.window offset length).length = min length (b.length - offset) := by
  simp [window]

theorem length_splice {b data : Bytes} {start : Nat} (h : start + data.length ≤ b.length) :
    (b.splice start data).length = b.length := by
  simp [splice]; omega

theorem getElem?_splice {b data : Bytes} {start : Nat} (h : start + data.length ≤ b.length) (i : Nat) :
    (b.splice start data)[i]? =
      if start ≤ i ∧ i < start + data.length then data[i - start]? else b[i]? := by
  simp only [splice, List.append_assoc]
  by_cases h1 : i < start
  · rw [List.getElem?_append_left (by simp; omega)]
    simp [h1, Nat.not_le.2 h1]
  · rw [List.getElem?_append_right (by simp; omega)]
    have hs : min start b.length = start := by omega
    simp only [List.length_take, hs]
    by_cases h2 : i < start + data.length
    · rw [List.getElem?_append_left (by omega)]
      simp [Nat.not_lt.1 h1, h2]
    · rw [List.getElem?_append_right (by omega)]
      simp only [List.getElem?_drop, h2, and_false, if_false]
      congr 1; omega

end Bytes

end OnDemand
