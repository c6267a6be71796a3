import OnDemand.Bytes

/-!
# UTF-8

Encoding is the concatenation of the encodings of the characters. Decoding never fails: every maximal
part that no character continues becomes one U+FFFD. A byte sequence is well formed exactly when decoding
loses nothing, which is how `decode?` decides it.
-/

namespace OnDemand.Text.Utf8

def encodeChars (s : List Char) : Bytes := s.flatMap String.utf8EncodeChar

def encode (s : String) : Bytes := encodeChars s.toList

def replacement : Char := '\uFFFD'

/-- A character whose first bytes have been read: `needed` more are due, and the next one lies between
`low` and `high`. -/
structure Pending where
  needed : Nat
  low : Nat
  high : Nat
  value : Nat
deriving DecidableEq, Repr

/-- What a byte between two characters begins. -/
inductive Lead where
  | single (c : Char)
  | pending (p : Pending)
  | stray
deriving DecidableEq, Repr

def lead (b : UInt8) : Lead :=
  let n := b.toNat
  if n < 0x80 then .single (Char.ofNat n)
  else if n < 0xC2 then .stray
  else if n < 0xE0 then .pending ⟨1, 0x80, 0xBF, n - 0xC0⟩
  else if n = 0xE0 then .pending ⟨2, 0xA0, 0xBF, 0⟩
  else if n = 0xED then .pending ⟨2, 0x80, 0x9F, 13⟩
  else if n < 0xF0 then .pending ⟨2, 0x80, 0xBF, n - 0xE0⟩
  else if n = 0xF0 then .pending ⟨3, 0x90, 0xBF, 0⟩
  else if n < 0xF4 then .pending ⟨3, 0x80, 0xBF, n - 0xF0⟩
  else if n = 0xF4 then .pending ⟨3, 0x80, 0x8F, 4⟩
  else .stray

def decodeFrom : Option Pending → Bytes → List Char
  | none, [] => []
  | some _, [] => [replacement]
  | none, b :: rest =>
    match lead b with
    | .single c => c :: decodeFrom none rest
    | .pending p => decodeFrom (some p) rest
    | .stray => replacement :: decodeFrom none rest
  | some p, b :: rest =>
    if p.low ≤ b.toNat ∧ b.toNat ≤ p.high then
      let value := p.value * 64 + (b.toNat - 0x80)
      if p.needed ≤ 1 then Char.ofNat value :: decodeFrom none rest
      else decodeFrom (some ⟨p.needed - 1, 0x80, 0xBF, value⟩) rest
    else
      match lead b with
      | .single c => replacement :: c :: decodeFrom none rest
      | .pending q => replacement :: decodeFrom (some q) rest
      | .stray => replacement :: replacement :: decodeFrom none rest

def decode (b : Bytes) : String := String.ofList (decodeFrom none b)

/-- The text that `b` encodes, if it is well formed. -/
def decode? (b : Bytes) : Option String :=
  if encode (decode b) = b then some (decode b) else none

end OnDemand.Text.Utf8
