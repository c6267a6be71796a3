import OnDemand.Text.Utf8

/-!
# File identities

The blob a placeholder carries and every fetch callback hands back. This library puts the key of a remote
object into it, but the facility takes any bytes up to its limit.
-/

namespace OnDemand

structure FileIdentity where
  bytes : Bytes
deriving DecidableEq, Repr, Inhabited

namespace FileIdentity

/-- The longest identity the facility accepts. -/
def maxLength : Nat := 4096

def ofText (s : String) : FileIdentity := ⟨Text.Utf8.encode s⟩

def length (i : FileIdentity) : Nat := i.bytes.length

/-- The length as the facility is told it, in a 32-bit word. -/
def wordLength (i : FileIdentity) : UInt32 := UInt32.ofNat i.bytes.length

def fits (i : FileIdentity) : Bool := i.bytes.length ≤ maxLength

/-- The identity as text, with U+FFFD for what is not UTF-8. -/
def display (i : FileIdentity) : String := Text.Utf8.decode i.bytes

/-- The object key that the identity spells, if it is UTF-8. -/
def text? (i : FileIdentity) : Option String := Text.Utf8.decode? i.bytes

end FileIdentity

end OnDemand
