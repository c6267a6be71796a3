/-!
# UTF-16 and NUL-terminated wide text

Decoding replaces every surrogate without a partner by U+FFFD. Wide text ends with a NUL unit, and
reading it stops at the first one.
-/

namespace OnDemand.Text.Utf16

def encodeChar (c : Char) : List UInt16 :=
  let n := c.val.toNat
  if n < 0x10000 then [n.toUInt16]
  else [(0xD800 + (n - 0x10000) / 0x400).toUInt16, (0xDC00 + (n - 0x10000) % 0x400).toUInt16]

def encode (s : List Char) : List UInt16 := s.flatMap encodeChar

def isHigh (u : UInt16) : Bool := 0xD800 ≤ u.toNat && u.toNat < 0xDC00

def isLow (u : UInt16) : Bool := 0xDC00 ≤ u.toNat && u.toNat < 0xE000

/-- The character of a surrogate pair. -/
def pair (high low : UInt16) : Char :=
  Char.ofNat (0x10000 + (high.toNat - 0xD800) * 0x400 + (low.toNat - 0xDC00))

/-- The character of a unit that stands alone. -/
def single (u : UInt16) : Char :=
  if isHigh u || isLow u then '\uFFFD' else Char.ofNat u.toNat

def decode : List UInt16 → List Char
  | [] => []
  | [u] => [single u]
  | u :: v :: rest =>
    if isHigh u && isLow v then pair u v :: decode rest
    else single u :: decode (v :: rest)

def encodeTerminated (s : String) : List UInt16 := encode s.toList ++ [0]

def decodeTerminated (w : List UInt16) : String := String.ofList (decode (w.takeWhile (· ≠ 0)))

end OnDemand.Text.Utf16
