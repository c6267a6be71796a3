import OnDemand.Text.Blank
import OnDemand.Toml.Number
import OnDemand.Toml.Table

/-!
# TOML documents

A document is a sequence of lines: assignments, headers, comments and empty lines. Values nest up to a limit.
-/

namespace OnDemand.Toml

/-- The depth at which a value, and the number of parts at which a key, is refused. -/
def nestingLimit : Nat := 80

def isBareKey (c : Char) : Bool := c.isAlphanum || c = '-' || c = '_'

def simpleKey : Parse String := fun s =>
  match shortString s with
  | some found => some found
  | none =>
    let bare := s.takeWhile isBareKey
    if bare = [] then none else some (String.ofList bare, s.dropWhile isBareKey)

def keyParts : Nat → Parse (List String)
  | 0, _ => none
  | fuel + 1, s => do
    let (part, s) ← simpleKey (skipSpaces s)
    match skipSpaces s with
    | '.' :: rest =>
      let (parts, s) ← keyParts fuel rest
      some (part :: parts, s)
    | s => some ([part], s)

/-- A dotted key: the parts before the last, and the last. -/
def key : Parse (List String × String) := fun s => do
  let (parts, s) ← keyParts nestingLimit s
  let last ← parts.getLast?
  if parts.length < nestingLimit then some ((parts.dropLast, last), s) else none

mutual

/-- A value at some depth below the top. -/
def value (depth : Nat) : Nat → Parse Value
  | 0, _ => none
  | _ + 1, [] => none
  | fuel + 1, c :: rest =>
    if c = '"' ∨ c = '\'' then (string (c :: rest)).map fun (text, s) => (.string text, s)
    else if c = '[' then
      if depth + 1 < nestingLimit then
        (arrayItems (depth + 1) fuel rest).map fun (items, s) => (.array items, s)
      else none
    else if c = '{' then
      if depth + 1 < nestingLimit then do
        let (assignments, s) ← inlineItems (depth + 1) fuel rest
        let items ← Items.addAll? assignments []
        some (.table .closed items, s)
      else none
    else if c = 't' then (Text.after? "true".toList (c :: rest)).map (.boolean true, ·)
    else if c = 'f' then (Text.after? "false".toList (c :: rest)).map (.boolean false, ·)
    else if c = 'i' ∨ c = 'n' then specialFloat (c :: rest)
    else number (c :: rest)

/-- The values of an array up to its closing bracket. -/
def arrayItems (depth : Nat) : Nat → Parse (List Value)
  | 0, _ => none
  | fuel + 1, s =>
    match skipBlank s with
    | ']' :: rest => some ([], rest)
    | s => do
      let (v, s) ← value depth fuel s
      match skipBlank s with
      | ',' :: rest =>
        let (vs, s) ← arrayItems depth fuel rest
        some (v :: vs, s)
      | ']' :: rest => some ([v], rest)
      | _ => none

/-- The assignments of an inline table up to its closing brace. -/
def inlineItems (depth : Nat) : Nat → Parse Items.Assignments
  | 0, _ => none
  | fuel + 1, s =>
    match skipSpaces s with
    | '\x7d' :: rest => some ([], rest)
    | s => moreInlineItems depth fuel s

def moreInlineItems (depth : Nat) : Nat → Parse Items.Assignments
  | 0, _ => none
  | fuel + 1, s => do
    let ((path, last), s) ← key s
    match s with
    | '=' :: rest =>
      let (v, s) ← value depth fuel (skipSpaces rest)
      match skipSpaces s with
      | ',' :: rest =>
        let (more, s) ← moreInlineItems depth fuel rest
        some ((path, last, v) :: more, s)
      | '\x7d' :: rest => some ([(path, last, v)], rest)
      | _ => none
    | _ => none

end

/-- A line of a document. -/
inductive Line where
  | assignment (path : List String) (key : String) (value : Value)
  | table (path : List String) (key : String)
  | element (path : List String) (key : String)

def headerLine : Parse Line
  | '[' :: '[' :: rest => do
    let ((path, last), s) ← key rest
    match s with
    | ']' :: ']' :: rest => some (.element path last, rest)
    | _ => none
  | '[' :: rest => do
    let ((path, last), s) ← key rest
    match s with
    | ']' :: rest => some (.table path last, rest)
    | _ => none
  | _ => none

def assignmentLine : Parse Line := fun s => do
  let ((path, last), s) ← key s
  match s with
  | '=' :: rest =>
    let rest := skipSpaces rest
    let (v, s) ← value 0 (2 * rest.length + 2) rest
    some (.assignment path last v, s)
  | _ => none

def lines : Nat → List Char → Option (List Line)
  | 0, _ => none
  | fuel + 1, s =>
    match skipSpaces s with
    | [] => some []
    | c :: rest => do
      if c = '#' ∨ c = '\n' ∨ c = '\r' then lines fuel (← afterLine? (c :: rest))
      else
        let (line, s) ← if c = '[' then headerLine (c :: rest) else assignmentLine (c :: rest)
        let more ← lines fuel (← afterLine? s)
        some (line :: more)

/-- The assignments at the start of some lines, and the lines from the next header on. -/
def leadingAssignments : List Line → Items.Assignments × List Line
  | .assignment path key v :: rest =>
    let (assignments, rest) := leadingAssignments rest
    ((path, key, v) :: assignments, rest)
  | rest => ([], rest)

/-- Puts the tables that the headers open into `items`, one after the other. -/
def addTables? : Nat → List Line → Items → Option Items
  | 0, _, _ => none
  | _ + 1, [], items => some items
  | fuel + 1, line :: rest, items => do
    let (assignments, rest) := leadingAssignments rest
    let items ← match line with
      | .table path key => items.defineTable? path key assignments
      | .element path key => items.appendTable? path key assignments
      | .assignment _ _ _ => none
    addTables? fuel rest items

def parse? (text : String) : Option Items := do
  let s := match text.toList with
    | '\uFEFF' :: rest => rest
    | s => s
  let lines ← lines (s.length + 1) s
  let (assignments, rest) := leadingAssignments lines
  let items ← Items.addAll? assignments []
  addTables? (rest.length + 1) rest items

end OnDemand.Toml
