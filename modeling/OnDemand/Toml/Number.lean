import OnDemand.Text.Number
import OnDemand.Toml.Text
import OnDemand.Word

/-!
# TOML numbers and dates

Integers are signed 64-bit words, in one of four bases; an underscore may stand between two digits. Of floats and dates only
their form is checked, and that a float is not too large.
-/

namespace OnDemand.Toml

/-- More digits; an underscore counts only before another digit. -/
def moreDigits (isDigit : Char → Bool) : List Char → List Char × List Char
  | '_' :: c :: rest =>
    if isDigit c then
      let (ds, rest) := moreDigits isDigit rest
      (c :: ds, rest)
    else ([], '_' :: c :: rest)
  | c :: rest =>
    if isDigit c then
      let (ds, rest) := moreDigits isDigit rest
      (c :: ds, rest)
    else ([], c :: rest)
  | [] => ([], [])

def digitRun (isDigit : Char → Bool) : Parse (List Char)
  | c :: rest =>
    if isDigit c then
      let (ds, rest) := moreDigits isDigit rest
      some (c :: ds, rest)
    else none
  | [] => none

/-- The value of digits of a base, most significant first. -/
def ofDigits (base : Nat) (ds : List Char) : Nat :=
  ds.foldl (fun n d => base * n + (hexValue? d).getD 0) 0

/-- Whether a minus sign leads, and the input after a sign. -/
def sign : List Char → Bool × List Char
  | '+' :: rest => (false, rest)
  | '-' :: rest => (true, rest)
  | s => (false, s)

/-- Decimal digits without a zero in front of others. -/
def wholeDigits : Parse (List Char)
  | '0' :: rest => some (['0'], rest)
  | s => digitRun Char.isDigit s

def bounded (n : Int) (rest : List Char) : Option (Value × List Char) :=
  if Word.fitsSigned n then some (.integer n, rest) else none

def based (base : Nat) (isDigit : Char → Bool) (s : List Char) : Option (Value × List Char) := do
  let (ds, rest) ← digitRun isDigit s
  bounded (ofDigits base ds) rest

def integer : Parse Value
  | '0' :: 'x' :: rest => based 16 (fun c => (hexValue? c).isSome) rest
  | '0' :: 'o' :: rest => based 8 (fun c => '0' ≤ c && c ≤ '7') rest
  | '0' :: 'b' :: rest => based 2 (fun c => c = '0' || c = '1') rest
  | s => do
    let (negative, s) := sign s
    let (ds, rest) ← wholeDigits s
    let n := ofDigits 10 ds
    bounded (if negative then -n else n) rest

/-! ## Floats -/

/-- The least number that no double is nearest to. -/
def floatLimit : Nat := Nat.pow 2 1024 - Nat.pow 2 970

/-- Whether the number with these digits, times a power of ten, is too large for a double. -/
def isTooLarge (digits : List Char) (exponent : Int) : Bool :=
  let digits := digits.dropWhile (· = '0')
  let magnitude := digits.length + exponent
  if digits = [] ∨ magnitude < 300 then false
  else if 310 < magnitude then true
  else
    let m := ofDigits 10 digits
    if 0 ≤ exponent then floatLimit ≤ m * Nat.pow 10 exponent.toNat
    else floatLimit * Nat.pow 10 (-exponent).toNat ≤ m

def exponentPart : Parse Int
  | c :: rest =>
    if c = 'e' ∨ c = 'E' then do
      let (negative, rest) := sign rest
      let (ds, rest) ← digitRun Char.isDigit rest
      let n : Int := ofDigits 10 ds
      some (if negative then -n else n, rest)
    else none
  | [] => none

def fractionPart : Parse (List Char)
  | '.' :: rest => digitRun Char.isDigit rest
  | _ => none

def specialFloat : Parse Value
  | 'i' :: 'n' :: 'f' :: rest => some (.float, rest)
  | 'n' :: 'a' :: 'n' :: rest => some (.float, rest)
  | _ => none

/-- A number with a fraction or an exponent. One that is too large is refused; a negative one is taken as infinite. -/
def float : Parse Value := fun s =>
  let (negative, s) := sign s
  match specialFloat s with
  | some found => some found
  | none => do
    let (whole, rest) ← wholeDigits s
    let (fraction, exponent, rest) ← match fractionPart rest with
      | some (fraction, rest) =>
        match exponentPart rest with
        | some (e, rest) => some (fraction, e, rest)
        | none => some (fraction, 0, rest)
      | none => (exponentPart rest).map fun (e, rest) => ([], e, rest)
    if isTooLarge (whole ++ fraction) (exponent - fraction.length) ∧ !negative then none else some (.float, rest)

/-! ## Dates and times -/

/-- A number of exactly `count` digits, between two bounds. -/
def field (count low high : Nat) : Parse Nat := fun s =>
  let ds := s.take count
  if ds.length = count ∧ ds.all Char.isDigit then
    let n := ofDigits 10 ds
    if low ≤ n ∧ n ≤ high then some (n, s.drop count) else none
  else none

def character (c : Char) : Parse Unit
  | d :: rest => if d = c then some ((), rest) else none
  | [] => none

def isLeap (year : Nat) : Bool := year % 4 = 0 && (year % 100 ≠ 0 || year % 400 = 0)

def daysIn (year month : Nat) : Nat :=
  if month = 2 then (if isLeap year then 29 else 28)
  else if month ∈ [4, 6, 9, 11] then 30 else 31

def date : Parse Unit := fun s => do
  let (year, s) ← field 4 0 9999 s
  let ((), s) ← character '-' s
  let (month, s) ← field 2 1 12 s
  let ((), s) ← character '-' s
  let (_, s) ← field 2 1 (daysIn year month) s
  some ((), s)

def time : Parse Unit := fun s => do
  let (_, s) ← field 2 0 23 s
  let ((), s) ← character ':' s
  let (_, s) ← field 2 0 59 s
  let ((), s) ← character ':' s
  let (_, s) ← field 2 0 60 s
  match s with
  | '.' :: c :: rest => if c.isDigit then some ((), rest.dropWhile Char.isDigit) else some ((), s)
  | _ => some ((), s)

def zone : Parse Unit
  | [] => none
  | c :: rest =>
    if c = 'Z' ∨ c = 'z' then some ((), rest)
    else if c = '+' ∨ c = '-' then do
      let (_, s) ← field 2 0 23 rest
      let ((), s) ← character ':' s
      let (_, s) ← field 2 0 59 s
      some ((), s)
    else none

def timeOfDate : Parse Unit
  | [] => none
  | c :: rest =>
    if c = 'T' ∨ c = 't' ∨ c = ' ' then do
      let ((), s) ← time rest
      some ((zone s).getD ((), s))
    else none

def datetime : Parse Value := fun s =>
  match date s with
  | some ((), s) => some (.datetime, ((timeOfDate s).map (·.2)).getD s)
  | none => (time s).map fun ((), s) => (.datetime, s)

/-- A date, a float or an integer, the first that fits. -/
def number : Parse Value := fun s =>
  match datetime s with
  | some found => some found
  | none =>
    match float s with
    | some found => some found
    | none => integer s

end OnDemand.Toml
