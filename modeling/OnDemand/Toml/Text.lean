import OnDemand.Toml.Value

/-!
# TOML strings and white space

Control characters other than the tab are never allowed. Strings between triple quotes may span lines, and every line
end in them reads as a line feed.
-/

namespace OnDemand.Toml

def isSpace (c : Char) : Bool := c = ' ' || c = '\t'

/-- A character that comments and strings may hold as it is. -/
def isPlain (c : Char) : Bool := c = '\t' || (0x20 ≤ c.toNat && c.toNat ≠ 0x7F)

def skipSpaces (s : List Char) : List Char := s.dropWhile isSpace

/-- The input after a line end. -/
def afterNewline? : List Char → Option (List Char)
  | '\n' :: rest => some rest
  | '\r' :: '\n' :: rest => some rest
  | _ => none

def skipComment : List Char → List Char
  | '#' :: rest => rest.dropWhile isPlain
  | s => s

/-- The input after spaces, a comment and a line end or the end of the input. -/
def afterLine? (s : List Char) : Option (List Char) :=
  match skipComment (skipSpaces s) with
  | [] => some []
  | s => afterNewline? s

/-- The input after any spaces, comments and line ends. -/
def skipLines : Nat → List Char → List Char
  | 0, s => s
  | fuel + 1, s =>
    let s := skipComment (skipSpaces s)
    match afterNewline? s with
    | some rest => skipLines fuel rest
    | none => s

def skipBlank (s : List Char) : List Char := skipLines (s.length + 1) s

def hexValue? (c : Char) : Option Nat :=
  if c.isDigit then some (c.toNat - '0'.toNat)
  else if 'a' ≤ c ∧ c ≤ 'f' then some (c.toNat - 'a'.toNat + 10)
  else if 'A' ≤ c ∧ c ≤ 'F' then some (c.toNat - 'A'.toNat + 10)
  else none

/-- The character with the code point written in exactly `count` hexadecimal digits. -/
def codePoint (count : Nat) : Parse Char := fun s => do
  let digits ← (s.take count).mapM hexValue?
  if digits.length ≠ count then none
  let n := digits.foldl (fun n d => 16 * n + d) 0
  if n.isValidChar then some (Char.ofNat n, s.drop count) else none

/-- What stands after a backslash. -/
def escaped : Parse Char
  | 'b' :: rest => some ('\x08', rest)
  | 't' :: rest => some ('\t', rest)
  | 'n' :: rest => some ('\n', rest)
  | 'f' :: rest => some ('\x0c', rest)
  | 'r' :: rest => some ('\r', rest)
  | '"' :: rest => some ('"', rest)
  | '\\' :: rest => some ('\\', rest)
  | 'u' :: rest => codePoint 4 rest
  | 'U' :: rest => codePoint 8 rest
  | _ => none

/-- A string up to its closing double quote. -/
def basicBody : Nat → Parse (List Char)
  | 0, _ => none
  | _ + 1, [] => none
  | fuel + 1, c :: rest =>
    if c = '"' then some ([], rest)
    else if c = '\\' then do
      let (e, rest) ← escaped rest
      let (cs, rest) ← basicBody fuel rest
      some (e :: cs, rest)
    else if isPlain c then do
      let (cs, rest) ← basicBody fuel rest
      some (c :: cs, rest)
    else none

/-- A string up to its closing apostrophe. -/
def literalBody : Parse (List Char)
  | [] => none
  | c :: rest =>
    if c = '\'' then some ([], rest)
    else if isPlain c then do
      let (cs, rest) ← literalBody rest
      some (c :: cs, rest)
    else none

/-- The quotes that belong to a string before the three that close it, and what follows those: of a run of quotes up to two
belong to the string. -/
def closing? (quote : Char) (s : List Char) : Option (List Char × List Char) :=
  let run := (s.takeWhile (· = quote)).length
  if run < 3 then none
  else
    let own := min (run - 3) 2
    some (List.replicate own quote, s.drop (own + 3))

/-- The input after any spaces and line ends. -/
def skipBreaks : List Char → List Char
  | '\r' :: '\n' :: rest => skipBreaks rest
  | c :: rest => if isSpace c || c = '\n' then skipBreaks rest else c :: rest
  | [] => []

/-- What follows a backslash at the end of a line: the line end and all white space after it are left out. -/
def continued? (s : List Char) : Option (List Char) := (afterNewline? (skipSpaces s)).map skipBreaks

def longBasicBody : Nat → Parse (List Char)
  | 0, _ => none
  | fuel + 1, s =>
    match closing? '"' s with
    | some found => some found
    | none =>
      match afterNewline? s, s with
      | some rest, _ => (longBasicBody fuel rest).map fun (cs, rest) => ('\n' :: cs, rest)
      | none, '\\' :: rest =>
        match continued? rest with
        | some rest => longBasicBody fuel rest
        | none => do
          let (e, rest) ← escaped rest
          let (cs, rest) ← longBasicBody fuel rest
          some (e :: cs, rest)
      | none, c :: rest =>
        if isPlain c then (longBasicBody fuel rest).map fun (cs, rest) => (c :: cs, rest) else none
      | none, [] => none

def longLiteralBody : Nat → Parse (List Char)
  | 0, _ => none
  | fuel + 1, s =>
    match closing? '\'' s with
    | some found => some found
    | none =>
      match afterNewline? s, s with
      | some rest, _ => (longLiteralBody fuel rest).map fun (cs, rest) => ('\n' :: cs, rest)
      | none, c :: rest =>
        if isPlain c then (longLiteralBody fuel rest).map fun (cs, rest) => (c :: cs, rest) else none
      | none, [] => none

/-- A line end right after the opening quotes does not count. -/
def skipFirstNewline (s : List Char) : List Char := (afterNewline? s).getD s

def text (body : Parse (List Char)) : Parse String := fun s =>
  (body s).map fun (cs, rest) => (String.ofList cs, rest)

/-- A string on one line. -/
def shortString : Parse String
  | '"' :: rest => text (basicBody (rest.length + 1)) rest
  | '\'' :: rest => text literalBody rest
  | _ => none

def string : Parse String
  | '"' :: '"' :: '"' :: rest => text (longBasicBody (rest.length + 1)) (skipFirstNewline rest)
  | '\'' :: '\'' :: '\'' :: rest => text (longLiteralBody (rest.length + 1)) (skipFirstNewline rest)
  | s => shortString s

end OnDemand.Toml
