import OnDemand.Catalog.Entry
import OnDemand.Text.Number
import OnDemand.Word

/-!
# Index entries

The remote index describes each file by a text of `key=value` lines. The keys `object`, `size` and `mtime` count,
the last line of each; values are trimmed, and a number that cannot be read spoils the whole text.
-/

namespace OnDemand.Index

/-- The lines of `s`: a line feed ends a line, a carriage return before it belongs to the line's end. -/
def lines (s : List Char) : List (List Char) :=
  match s with
  | [] => []
  | _ =>
    let pieces := Text.splitBy (· = '\n') s
    let ended := pieces.dropLast.map fun line => if line.getLast? = some '\r' then line.dropLast else line
    ended ++ (match pieces.getLast? with
      | some (c :: last) => [c :: last]
      | _ => [])

/-- The trimmed values of the lines with the given key, in order. -/
def values (key : String) (lines : List (List Char)) : List (List Char) :=
  lines.filterMap fun line => (Text.after? (key.toList ++ ['=']) line).map (Text.trimBy Text.isBlank)

def sizeBound : Nat := Word.maxUnsigned + 1

def mtimeBound : Nat := 9223372036854775808

/-- The last of the values, read by `read`; `default` without any, nothing if one cannot be read. -/
def lastRead {α : Type} (read : List Char → Option α) (default : α) (values : List (List Char)) : Option α :=
  values.foldl (fun last value => last.bind fun _ => read value) (some default)

/-- The entry at `path` that `text` describes. -/
def parse? (path text : String) : Option Entry := do
  let lines := lines text.toList
  let size ← lastRead (Text.unsigned? sizeBound) 0 (values "size" lines)
  let mtime ← lastRead (Text.signed? mtimeBound) 0 (values "mtime" lines)
  let object ← (values "object" lines).getLast?.filter (· ≠ [])
  return ⟨String.ofList (Text.trimBy (· = '/') path.toList), String.ofList object, size, mtime, false⟩

/-- The lines that describe `e`. -/
def render (e : Entry) : List String :=
  [s!"object={e.object}", s!"size={e.size}", s!"mtime={e.mtime}"]

/-- The place of the index below a remote prefix. -/
def directory (remotePrefix : String) : String :=
  String.ofList (Text.trimEndBy (· = '/') remotePrefix.toList) ++ "/index/"

end OnDemand.Index
