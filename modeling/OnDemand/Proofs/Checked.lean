import OnDemand.Bytes
import OnDemand.Word

/-!
# Checked sums and slices

A sum that has to fit an unsigned word, and slices that have to lie within their bytes. Each is none where it would go
beyond that.
-/

namespace OnDemand

namespace Word

variable {a b n : Nat}

/-- The sum, if it fits an unsigned word. -/
def add? (a b : Nat) : Option Nat := if a + b ≤ maxUnsigned then some (a + b) else none

/-- The signed word with the bits of `n`. -/
def toSigned (n : Nat) : Int := (n : Int).bmod (maxUnsigned + 1)

theorem add?_eq_some (h : a + b ≤ maxUnsigned) : add? a b = some (a + b) := if_pos h

/-- Two signed words that are not negative add up to an unsigned one. -/
theorem add?_of_signed (ha : (a : Int) ≤ maxSigned) (hb : (b : Int) ≤ maxSigned) : add? a b = some (a + b) := by
  simp only [maxSigned] at ha hb
  exact add?_eq_some (by simp only [maxUnsigned]; omega)

theorem toSigned_eq_self (h : (n : Int) ≤ maxSigned) : toSigned n = n := by
  simp only [maxSigned] at h
  exact Int.bmod_eq_of_le (by simp only [maxUnsigned]; omega) (by simp only [maxUnsigned]; omega)

end Word

namespace Bytes

variable {b data : Bytes} {start stop : Nat}

/-- The bytes at the positions `start ≤ i < stop`, if these are positions of `b`. -/
def slice? (b : Bytes) (start stop : Nat) : Option Bytes :=
  if start ≤ stop ∧ stop ≤ b.length then some ((b.take stop).drop start) else none

/-- Puts `data` over the positions `start ≤ i < stop`, if these are positions of `b` and as many as there are bytes in
`data`. -/
def overwrite? (b : Bytes) (start stop : Nat) (data : Bytes) : Option Bytes :=
  if start ≤ stop ∧ stop ≤ b.length ∧ data.length = stop - start then some (b.take start ++ data ++ b.drop stop)
  else none

theorem slice?_eq_some (hstart : start ≤ stop) (hstop : stop ≤ b.length) :
    b.slice? start stop = some ((b.take stop).drop start) := if_pos ⟨hstart, hstop⟩

theorem overwrite?_eq_splice (h : start + data.length ≤ b.length) :
    b.overwrite? start (start + data.length) data = some (b.splice start data) :=
  if_pos ⟨Nat.le_add_right .., h, (Nat.add_sub_cancel_left ..).symm⟩

end Bytes

end OnDemand
