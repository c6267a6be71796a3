import OnDemand.Text.Invisible
import OnDemand.Text.Number

/-!
# Quoted text

Text between double quotes, with a backslash before quotes and backslashes, the usual short escapes, and
the code point of every invisible character.
-/

namespace OnDemand.Text

/-- The code point of a character between braces, in hexadecimal. -/
def codePoint (c : Char) : List Char := "\\u\x7b".toList ++ hex c.toNat ++ ['\x7d']

def quoteChar (c : Char) : List Char :=
  match c with
  | '\x00' => ['\\', '0']
  | '\t' => ['\\', 't']
  | '\r' => ['\\', 'r']
  | '\n' => ['\\', 'n']
  | '"' => ['\\', '"']
  | '\\' => ['\\', '\\']
  | c => if isInvisible c then codePoint c else [c]

def quote (s : String) : String := String.ofList ('"' :: s.toList.flatMap quoteChar ++ ['"'])

end OnDemand.Text
