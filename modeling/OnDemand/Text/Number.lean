/-!
# Numbers as text

Literals are ASCII digits with an optional sign, and refused when the value is out of bounds. Statuses and
keys are written in hexadecimal.
-/

namespace OnDemand.Text

def digitValue (c : Char) : Nat := c.toNat - '0'.toNat

/-- The value of a non-empty run of digits. -/
def digits? (s : List Char) : Option Nat :=
  if s ≠ [] ∧ s.all Char.isDigit then some (s.foldl (fun n c => 10 * n + digitValue c) 0) else none

/-- An unsigned literal below `bound`; a plus sign may precede it. -/
def unsigned? (bound : Nat) (s : List Char) : Option Nat :=
  (digits? (match s with | '+' :: rest => rest | s => s)).filter (· < bound)

/-- A signed literal from `-bound` to `bound - 1`. -/
def signed? (bound : Nat) (s : List Char) : Option Int :=
  match s with
  | '-' :: rest => ((digits? rest).filter (· ≤ bound)).map fun n => -(n : Int)
  | s => (unsigned? bound s).map Int.ofNat

def hexDigit (n : Nat) : Char :=
  if n < 10 then Char.ofNat ('0'.toNat + n) else Char.ofNat ('a'.toNat + (n - 10))

/-- The lower case hexadecimal digits of `n`, without leading zeros. -/
def hex (n : Nat) : List Char := Nat.toDigits 16 n

/-- Lower case hexadecimal, filled with zeros to `width` digits. -/
def hexFilled (width n : Nat) : List Char :=
  let d := hex n
  List.replicate (width - d.length) '0' ++ d

def hexUpper (width n : Nat) : String := String.ofList ((hexFilled width n).map Char.toUpper)

end OnDemand.Text
