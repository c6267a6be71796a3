/-!
# Classes of characters

A class of characters is a table of closed ranges of code points, in increasing order.
-/

namespace OnDemand.Text

abbrev Ranges := List (Nat × Nat)

def Ranges.contains (r : Ranges) (c : Char) : Bool :=
  let n := c.val.toNat
  r.any fun (first, last) => first ≤ n && n ≤ last

theorem Ranges.contains_iff {r : Ranges} {c : Char} :
    r.contains c = true ↔ ∃ p ∈ r, p.1 ≤ c.val.toNat ∧ c.val.toNat ≤ p.2 := by
  simp [Ranges.contains]

end OnDemand.Text
