import OnDemand.Text.Blank

/-!
# Object keys

Keys and prefixes have a normal form: no white space around them, no slash at the front, no two slashes in a row.
A slash at the end marks a directory and stays; the empty key is the top directory.
-/

namespace OnDemand.Store

def normalKey (key : String) : String :=
  let key := (Text.trimBy Text.isBlank key.toList).dropWhile (· = '/')
  if key = [] then "/"
  else
    let segments := (Text.splitBy (· = '/') key).filter (· ≠ [])
    let joined := ['/'].intercalate segments
    String.ofList (if key.getLast? = some '/' then joined ++ ['/'] else joined)

def isDirectoryKey (key : String) : Bool := key.toList.getLast? == some '/'

end OnDemand.Store
