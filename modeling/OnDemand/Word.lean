/-!
# Word ranges

Offsets, sizes and times are exact integers here; these are the bounds of the 64-bit words that hold them at
the facility.
-/

namespace OnDemand.Word

/-- The least signed 64-bit value. -/
def minSigned : Int := -9223372036854775808

/-- The greatest signed 64-bit value. -/
def maxSigned : Int := 9223372036854775807

/-- The greatest unsigned 64-bit value. -/
def maxUnsigned : Nat := 18446744073709551615

def clamp (n : Int) : Int := max minSigned (min n maxSigned)

def fitsSigned (n : Int) : Bool := decide (minSigned ≤ n ∧ n ≤ maxSigned)

/-- A sum that stops at the greatest unsigned value. -/
def addCapped (a b : Nat) : Nat := min (a + b) maxUnsigned

theorem fitsSigned_iff {n : Int} : fitsSigned n = true ↔ minSigned ≤ n ∧ n ≤ maxSigned := decide_eq_true_iff

theorem clamp_eq_self {n : Int} (h : fitsSigned n = true) : clamp n = n := by
  have := fitsSigned_iff.1 h
  unfold clamp
  omega

theorem fitsSigned_clamp (n : Int) : fitsSigned (clamp n) = true := by
  have : minSigned ≤ maxSigned := by decide
  rw [fitsSigned_iff]
  unfold clamp
  omega

end OnDemand.Word
