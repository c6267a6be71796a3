import OnDemand.Log.Line
import OnDemand.Log.Pattern
import OnDemand.Text.Utf8

/-!
# Directives

A directive is written `target[span{field=value}]=level`; every part may be missing, and a level alone is about all
targets. Blanks around a directive do not count when it is taken apart, but its parts are cut out at the same places of the
text with its blanks, and the last part goes to the very end.
-/

namespace OnDemand.Log

structure FieldTest where
  name : String
  /-- Whether the field has to have a certain value. -/
  hasValue : Bool
deriving DecidableEq, Repr

structure Directive where
  /-- The start of the targets that the directive is about. -/
  target : Option String
  /-- The span that a line has to stand in. -/
  span : Option String
  field : Option FieldTest
  verbosity : Nat
deriving DecidableEq, Repr

namespace Directive

/-- Whether a line can be judged by what it carries, without the span around it and without a value. -/
def isStatic (d : Directive) : Bool := d.span.isNone && !d.field.any (·.hasValue)

def covers (d : Directive) (l : Line) : Bool :=
  d.isStatic && d.target.all (·.toList.isPrefixOf l.target.toList) && d.field.all fun f => l.names.contains f.name

/-- How specific the target is; none is less than any. -/
def targetRank (d : Directive) : Nat := d.target.elim 0 (·.utf8ByteSize + 1)

/-- Whether `d` decides before `e`, or replaces it, where both cover a line: the longer target first, then the one that asks
for a field, then the greater name of a field. -/
def supersedes (d e : Directive) : Bool :=
  e.targetRank < d.targetRank ||
    (e.targetRank = d.targetRank &&
      match e.field, d.field with
      | none, _ => true
      | some _, none => false
      | some f, some g => f.name ≤ g.name)

end Directive

/-! ## Field values -/

/-- Digits with an optional point, at least one of them. -/
def isDecimal (s : List Char) : Bool :=
  let whole := s.takeWhile Char.isDigit
  match s.dropWhile Char.isDigit with
  | [] => whole ≠ []
  | '.' :: fraction => fraction.all Char.isDigit && (whole ≠ [] || fraction ≠ [])
  | _ => false

def isExponent (s : List Char) : Bool :=
  let digits := match s with
    | '+' :: digits | '-' :: digits => digits
    | digits => digits
  digits ≠ [] && digits.all Char.isDigit

/-- Whether a text is a number, in words or in digits, with an optional sign. -/
def isNumber (s : List Char) : Bool :=
  let s := match s with
    | '+' :: rest | '-' :: rest => rest
    | s => s
  let isMark (c : Char) : Bool := c = 'e' || c = 'E'
  ["inf", "infinity", "nan"].contains (String.ofList (s.map Char.toLower)) ||
    match s.dropWhile (!isMark ·) with
    | [] => isDecimal s
    | _ :: exponent => isDecimal (s.takeWhile (!isMark ·)) && isExponent exponent

/-- A field name with an optional value after an equals sign; what follows another equals sign does not count. A value is a
number or a pattern. -/
def FieldTest.read? (text : String) : Option FieldTest :=
  match Text.splitBy (· = '=') text.toList with
  | [] | [[]] => none
  | [name] => some ⟨String.ofList name, false⟩
  | name :: value :: _ =>
    if isNumber value || Pattern.isPattern value then some ⟨String.ofList name, true⟩ else none

/-! ## Reading -/

/-- A directive being read: its text with its blanks, and the size in bytes of its text without them. -/
structure Piece where
  whole : Bytes
  size : Nat
deriving DecidableEq, Repr

namespace Piece

/-- The text at the place of what lies between `start` and `stop`, two ends of the text without blanks. A cut through a
character gives nothing. -/
def between? (p : Piece) (start stop : List Char) : Option String :=
  let place (ending : List Char) := p.size - (Text.Utf8.encode (String.ofList ending)).length
  Text.Utf8.decode? (p.whole.window (place start) (place stop - place start))

/-- The text from the place of `start`, an end of the text without blanks, to the very end. -/
def from? (p : Piece) (start : List Char) : Option String :=
  Text.Utf8.decode? (p.whole.drop (p.size - (Text.Utf8.encode (String.ofList start)).length))

/-- The level at the end of a directive; all levels if there is none. -/
def level? (p : Piece) (start : List Char) : Option Nat :=
  (p.from? start).bind fun text => if text = "" then some Level.trace.verbosity else verbosity? text

/-- What follows the target and the span: nothing, or an equals sign and a level. -/
def ending? (p : Piece) (target span : Option String) (field : Option FieldTest) : List Char → Option Directive
  | [] => some ⟨target, span, field, Level.trace.verbosity⟩
  | '=' :: level => (p.level? level).map (⟨target, span, field, ·⟩)
  | _ => none

/-- What follows the bracket that opens a span: its name and a field, both of which may be missing. -/
def span? (p : Piece) (target : Option String) (text : List Char) : Option Directive :=
  let rest := text.dropWhile fun c => c ≠ ']' && c ≠ '\x7b'
  (p.between? text rest).bind fun name =>
    match rest with
    | ']' :: rest => p.ending? target (some name) none rest
    | '\x7b' :: text =>
      let rest := text.dropWhile (· ≠ '\x7d')
      match rest with
      | '\x7d' :: ']' :: after =>
        ((p.between? text rest).bind FieldTest.read?).bind fun field =>
          p.ending? target (if name = "" then none else some name) (some field) after
      | _ => none
    | _ => none

/-- A level or a target alone; what is no level is a target. -/
def alone? (p : Piece) (text : List Char) : Option Directive :=
  (p.from? text).map fun word =>
    match verbosity? word with
    | some v => ⟨none, none, none, v⟩
    | none => ⟨some word, none, none, Level.trace.verbosity⟩

end Piece

def startsTarget (c : Char) : Bool := Text.isLetterOrNumeral c || c = '-' || c = ':' || c = '_'

def Directive.read? (text : String) : Option Directive :=
  let trimmed := Text.trimBy Text.isBlank text.toList
  let p : Piece := ⟨Text.Utf8.encode text, (Text.Utf8.encode (String.ofList trimmed)).length⟩
  match trimmed with
  | [] => none
  | '[' :: rest => p.span? none rest
  | c :: _ =>
    if !startsTarget c then none
    else
      let rest := trimmed.dropWhile fun c => c ≠ '=' && c ≠ '['
      match rest with
      | [] => p.alone? trimmed
      | '[' :: after => (p.between? trimmed rest).bind fun target => p.span? (some target) after
      | rest => (p.between? trimmed rest).bind fun target => p.ending? (some target) none none rest

end OnDemand.Log
