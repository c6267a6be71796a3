import OnDemand.Text.Blank
import OnDemand.Text.Letter

/-!
# Patterns

A directive may ask for a value by a regular expression. Here it is only decided whether a text is one: groups, names,
flags, classes, escapes and repetitions have to be well formed, byte patterns may match ASCII only, and word boundaries
exist for ASCII words only. A count between braces cannot be written, because a brace ends the field that holds the pattern.
-/

namespace OnDemand.Log.Pattern

/-- What is decided by flags. -/
structure Switches where
  /-- Blanks and comments do not count. -/
  spaced : Bool
  /-- A pattern is about characters, not about bytes. -/
  unicode : Bool
deriving DecidableEq, Repr

/-- Drops blanks, and comments up to the end of their line. -/
def dropSpace (inComment : Bool) : List Char → List Char
  | [] => []
  | c :: rest =>
    if inComment then dropSpace (c ≠ '\n') rest
    else if Text.isBlank c then dropSpace false rest
    else if c = '#' then dropSpace true rest
    else c :: rest

def Switches.skip (s : Switches) (text : List Char) : List Char := if s.spaced then dropSpace false text else text

/-- One thing that a pattern matches: a character, a place between characters, or any character of a class. -/
inductive Atom where
  | char (code : Nat)
  | place
  | among
deriving DecidableEq, Repr

/-! ## Escapes -/

def hexValue? (c : Char) : Option Nat :=
  if c.isDigit then some (c.toNat - '0'.toNat)
  else if 'a' ≤ c ∧ c ≤ 'f' then some (c.toNat - 'a'.toNat + 10)
  else if 'A' ≤ c ∧ c ≤ 'F' then some (c.toNat - 'A'.toNat + 10)
  else none

/-- A number of exactly so many hexadecimal digits. -/
def hexNumber? (s : Switches) : Nat → Nat → List Char → Option (Nat × List Char)
  | 0, value, text => some (value, text)
  | _ + 1, _, [] => none
  | digits + 1, value, c :: rest => (hexValue? c).bind fun d => hexNumber? s digits (16 * value + d) (s.skip rest)

/-- A character by its number. In a byte pattern two digits name a byte. -/
def numbered? (s : Switches) (digits : Nat) (text : List Char) : Option (Atom × List Char) := do
  let (code, rest) ← hexNumber? s digits 0 (s.skip text)
  if !code.isValidChar then none
  else if digits = 2 && !s.unicode && 0x80 ≤ code then none
  else some (.char code, rest)

/-- The class of a general category by its letter. -/
def category? (s : Switches) (text : List Char) : Option (Atom × List Char) :=
  match s.skip text with
  | c :: rest => if s.unicode && "clmnpsz".toList.contains c.toLower then some (.among, s.skip rest) else none
  | [] => none

def control? (c : Char) : Option Char :=
  match c with
  | 'a' => some '\x07'
  | 'f' => some '\x0c'
  | 't' => some '\t'
  | 'n' => some '\n'
  | 'r' => some '\r'
  | 'v' => some '\x0b'
  | _ => none

/-- What follows a backslash. -/
def escape? (s : Switches) : List Char → Option (Atom × List Char)
  | [] => none
  | c :: rest =>
    match c with
    | 'x' => numbered? s 2 rest
    | 'u' => numbered? s 4 rest
    | 'U' => numbered? s 8 rest
    | 'p' | 'P' => category? s rest
    | 'd' | 's' | 'w' => some (.among, rest)
    | 'D' | 'S' | 'W' => if s.unicode then some (.among, rest) else none
    | 'A' | 'z' => some (.place, rest)
    | 'b' | 'B' | '<' | '>' => if s.unicode then none else some (.place, rest)
    | c =>
      match control? c with
      | some control => some (.char control.toNat, rest)
      | none => if c.toNat < 0x80 && !c.isAlphanum then some (.char c.toNat, rest) else none

/-! ## Classes -/

/-- How deep the parts of a concatenation, or the choices of an alternation, lie: one part alone adds nothing. -/
def nested : List Nat → Nat
  | [] => 0
  | [depth] => depth
  | depths => 1 + depths.foldl max 0

/-- An open bracket: the depth of what stands before the last operator, and of the items since. -/
structure Bracket where
  left : Option Nat
  items : List Nat
deriving DecidableEq, Repr

namespace Bracket

def add (depth : Nat) (b : Bracket) : Bracket := { b with items := depth :: b.items }

def setDepth (b : Bracket) : Nat :=
  match b.left with
  | none => nested b.items
  | some left => 1 + max left (nested b.items)

def operate (b : Bracket) : Bracket := ⟨some b.setDepth, []⟩

end Bracket

/-- A bracket after its opening: a circumflex negates it, and a closing bracket that comes first is an item. -/
def openBracket? (s : Switches) (text : List Char) : Option (Bracket × List Char) :=
  let text := s.skip text
  let negated := text.head? = some '^'
  let text := if negated then s.skip (text.drop 1) else text
  if negated && !s.unicode then none
  else match text with
    | ']' :: rest => some (⟨none, [0]⟩, rest)
    | text => some (⟨none, []⟩, text)

def classNames : List String :=
  ["alnum", "alpha", "ascii", "blank", "cntrl", "digit", "graph", "lower", "print", "punct", "space", "upper", "word",
    "xdigit"]

/-- A class by its name between colons, after the opening bracket, and whether it is negated. -/
def namedClass? : List Char → Option (Bool × List Char)
  | ':' :: text =>
    let negated := text.head? = some '^'
    let text := if negated then text.drop 1 else text
    let name := String.ofList (text.takeWhile (· ≠ ':'))
    match text.dropWhile (· ≠ ':') with
    | ':' :: ']' :: rest => if classNames.contains name then some (negated, rest) else none
    | _ => none
  | _ => none

/-- An item of a class; a byte pattern can only list ASCII characters. -/
def classAtom? (s : Switches) : List Char → Option (Atom × List Char)
  | [] => none
  | '\\' :: rest => (escape? s rest).filter fun (atom, _) =>
      match atom with
      | .char code => s.unicode || code < 0x80
      | .among => true
      | .place => false
  | c :: rest => if s.unicode || c.toNat < 0x80 then some (.char c.toNat, rest) else none

/-- Whether `text` goes on with the hyphen of a range. -/
def startsRange (s : Switches) (text : List Char) : Bool :=
  text.head? = some '-' && !((s.skip (text.drop 1)).head?.any fun c => c = ']' || c = '-')

/-- An item or a range of characters. -/
def classRange? (s : Switches) (text : List Char) : Option (List Char) := do
  let (first, rest) ← classAtom? s text
  let rest := s.skip rest
  if startsRange s rest then
    let (last, rest) ← classAtom? s (s.skip (rest.drop 1))
    match first, last with
    | .char a, .char b => if a ≤ b then some rest else none
    | _, _ => none
  else some rest

/-- Reads on in the open brackets, innermost first, up to the end of the outermost; returns the depth of the class. Every
round takes a character. -/
def readClass (s : Switches) : Nat → List Bracket → List Char → Option (Nat × List Char)
  | 0, _, _ | _, [], _ => none
  | fuel + 1, b :: outer, text =>
    match s.skip text with
    | [] => none
    | '[' :: rest =>
      match namedClass? rest with
      | some (negated, rest) => if negated && !s.unicode then none else readClass s fuel (b.add 0 :: outer) rest
      | none => (openBracket? s rest).bind fun (inner, rest) => readClass s fuel (inner :: b :: outer) rest
    | ']' :: rest =>
      match outer with
      | [] => some (1 + b.setDepth, rest)
      | around :: outer => readClass s fuel (around.add (1 + b.setDepth) :: outer) rest
    | '&' :: '&' :: rest | '-' :: '-' :: rest | '~' :: '~' :: rest => readClass s fuel (b.operate :: outer) rest
    | text => (classRange? s text).bind fun rest => readClass s fuel (b.add 0 :: outer) rest

def class? (s : Switches) (text : List Char) : Option (Nat × List Char) :=
  (openBracket? s text).bind fun (b, rest) => readClass s (rest.length + 1) [b] rest

/-! ## Groups -/

/-- A part of a concatenation. -/
structure Part where
  depth : Nat
  /-- Flags cannot be repeated. -/
  repeatable : Bool
deriving DecidableEq, Repr

/-- An open group: the switches that hold again after it, its alternatives so far, and the parts of the last one,
newest first. -/
structure Group where
  outside : Switches
  choices : List Nat
  parts : List Part
deriving DecidableEq, Repr

namespace Group

def choice (g : Group) : Nat := nested (g.parts.map (·.depth))

def depth (g : Group) : Nat := nested (g.choice :: g.choices)

def add (p : Part) (g : Group) : Group := { g with parts := p :: g.parts }

def alternate (g : Group) : Group := { g with choices := g.choice :: g.choices, parts := [] }

/-- Repeats the newest part. -/
def again? (g : Group) : Option Group :=
  match g.parts with
  | [] => none
  | p :: parts => if p.repeatable then some { g with parts := ⟨p.depth + 1, true⟩ :: parts } else none

end Group

/-- Flags up to a colon or a closing bracket: each once, and after one minus sign those that are taken back. -/
def flags? (seen : List Char) (off lastIsMinus : Bool) (s : Switches) :
    List Char → Option (Switches × Char × List Char)
  | [] => none
  | c :: rest =>
    if c = ':' || c = ')' then if lastIsMinus then none else some (s, c, rest)
    else if c = '-' then if off then none else flags? seen true true s rest
    else if seen.contains c then none
    else match c with
      | 'x' => flags? (c :: seen) off false { s with spaced := !off } rest
      | 'u' => flags? (c :: seen) off false { s with unicode := !off } rest
      | 'i' | 'm' | 's' | 'U' | 'R' => flags? (c :: seen) off false s rest
      | _ => none

/-- The name of a group, up to the angle bracket that closes it. -/
def groupName? (text : List Char) : Option (String × List Char) :=
  let name := text.takeWhile (· ≠ '>')
  match name, text.dropWhile (· ≠ '>') with
  | first :: more, _ :: rest =>
    if (first = '_' || Text.isLetter first)
        && more.all fun c => c = '_' || c = '.' || c = '[' || c = ']' || Text.isLetterOrNumeral c then
      some (String.ofList name, rest)
    else none
  | _, _ => none

/-- A pattern being read: the names given to groups, and the open groups, the pattern itself last. -/
structure Reading where
  switches : Switches
  names : List String
  groups : List Group
deriving DecidableEq, Repr

namespace Reading

def start : Reading := ⟨⟨false, true⟩, [], [⟨⟨false, true⟩, [], []⟩]⟩

/-- Changes the innermost group. -/
def change (f : Group → Group) (r : Reading) : Reading :=
  match r.groups with
  | [] => r
  | g :: outer => { r with groups := f g :: outer }

def add (p : Part) (r : Reading) : Reading := r.change (·.add p)

def enter (inside : Switches) (r : Reading) : Reading :=
  { r with switches := inside, groups := ⟨r.switches, [], []⟩ :: r.groups }

def named? (text : List Char) (r : Reading) : Option (Reading × List Char) := do
  let (name, rest) ← groupName? text
  if r.names.contains name then none else some ({ r with names := name :: r.names }.enter r.switches, rest)

/-- What follows an opening bracket. -/
def open? (text : List Char) (r : Reading) : Option (Reading × List Char) :=
  match r.switches.skip text with
  | '?' :: 'P' :: '<' :: rest => r.named? rest
  | '?' :: '<' :: rest => r.named? rest
  | '?' :: rest =>
    match flags? [] false false r.switches rest with
    | some (s, ':', after) => some (r.enter s, after)
    | some (s, _, after) => if rest.head? = some ')' then none else some ({ r with switches := s }.add ⟨0, false⟩, after)
    | none => none
  | text => some (r.enter r.switches, text)

def close? (r : Reading) : Option Reading :=
  match r.groups with
  | g :: around :: outer =>
    some { r with switches := g.outside, groups := around.add ⟨1 + g.depth, true⟩ :: outer }
  | _ => none

def again? (r : Reading) : Option Reading :=
  match r.groups with
  | [] => none
  | g :: outer => g.again?.map fun g => { r with groups := g :: outer }

/-- Reads the part that begins with `c`. -/
def part? (c : Char) (rest : List Char) (r : Reading) : Option (Reading × List Char) :=
  match c with
  | '(' => r.open? rest
  | ')' => r.close?.map (·, rest)
  | '|' => some (r.change Group.alternate, rest)
  | '?' | '*' | '+' => r.again?.map (·, if rest.head? = some '?' then rest.drop 1 else rest)
  | '\x7b' => none
  | '[' => (class? r.switches rest).map fun (depth, rest) => (r.add ⟨depth, true⟩, rest)
  | '\\' => (escape? r.switches rest).map fun (_, rest) => (r.add ⟨0, true⟩, rest)
  | '.' => if r.switches.unicode then some (r.add ⟨0, true⟩, rest) else none
  | _ => some (r.add ⟨0, true⟩, rest)

/-- Reads up to the end. Every round takes a character. -/
def run : Nat → List Char → Reading → Option Reading
  | 0, _, _ => none
  | fuel + 1, text, r =>
    match r.switches.skip text with
    | [] => some r
    | c :: rest => (r.part? c rest).bind fun (r, rest) => run fuel rest r

end Reading

/-- How deep a pattern may be nested. -/
def maxDepth : Nat := 250

/-- Whether a text is a pattern. -/
def isPattern (text : List Char) : Bool :=
  match Reading.start.run (text.length + 1) text with
  | some { groups := [g], .. } => g.depth ≤ maxDepth
  | _ => false

end OnDemand.Log.Pattern
