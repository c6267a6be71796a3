import OnDemand.Log.Level
import OnDemand.Text.Quoted

/-!
# Log lines

A line has a level, a target, a message and named values. In a text line the message comes first, without the characters
that steer a terminal, and each value after its name; a value is quoted where the program gives a plain string.
-/

namespace OnDemand.Log

structure Field where
  name : String
  value : String
  quoted : Bool
deriving DecidableEq, Repr, Inhabited

structure Line where
  level : Level
  target : String
  message : String
  fields : List Field
deriving DecidableEq, Repr, Inhabited

inductive Format where
  | json
  | text
deriving DecidableEq, Repr, Inhabited

/-- The name under which a line carries its message. -/
def messageName : String := "message"

/-- The names of everything that a line carries. -/
def Line.names (l : Line) : List String := messageName :: l.fields.map (·.name)

/-- A character of a message as text: those that could begin a terminal sequence are written out. -/
def messageChar (c : Char) : List Char :=
  match c with
  | '\x07' | '\x08' | '\x0c' | '\x1b' | '\x7f' => '\\' :: 'x' :: Text.hexFilled 2 c.toNat
  | c => if 0x80 ≤ c.toNat ∧ c.toNat ≤ 0x9F then Text.codePoint c else [c]

def Field.text (f : Field) : String :=
  " " ++ f.name ++ "=" ++ if f.quoted then Text.quote f.value else f.value

/-- The message and the fields of a line. -/
def Line.text (l : Line) : String :=
  String.ofList (l.message.toList.flatMap messageChar) ++ String.join (l.fields.map Field.text)

/-- A character between the quotes of a JSON string. -/
def jsonChar (c : Char) : List Char :=
  match c with
  | '"' => ['\\', '"']
  | '\\' => ['\\', '\\']
  | '\x08' => ['\\', 'b']
  | '\t' => ['\\', 't']
  | '\n' => ['\\', 'n']
  | '\x0c' => ['\\', 'f']
  | '\r' => ['\\', 'r']
  | c => if c.toNat < 0x20 then '\\' :: 'u' :: Text.hexFilled 4 c.toNat else [c]

def jsonString (s : String) : String := String.ofList ('"' :: s.toList.flatMap jsonChar ++ ['"'])

def Line.json (l : Line) : String :=
  let member (name value : String) := jsonString name ++ ":" ++ jsonString value
  let fields := member messageName l.message :: l.fields.map fun f => member f.name f.value
  "\x7b" ++ member "level" l.level.name ++ ",\"fields\":\x7b" ++ ",".intercalate fields ++ "\x7d,"
    ++ member "target" l.target ++ "\x7d"

def Line.render (l : Line) : Format → String
  | .text => s!"{l.level.name} {l.target}: {l.text}"
  | .json => l.json

end OnDemand.Log
