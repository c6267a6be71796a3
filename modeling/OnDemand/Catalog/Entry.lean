import OnDemand.Text.Blank

/-!
# Catalog entries

One remote file or directory. Its path is relative to the sync root, with slashes between the components; its
ancestors are what stands before each slash.
-/

namespace OnDemand

structure Entry where
  path : String
  /-- The key of the remote object, which becomes the identity of the placeholder. -/
  object : String
  size : Nat
  mtime : Int
  directory : Bool
deriving DecidableEq, Repr, Inhabited

namespace Entry

/-- What stands before each slash of `s`, shortest first. -/
def cuts : List Char → List (List Char)
  | [] => []
  | c :: rest =>
    let longer := (cuts rest).map (c :: ·)
    if c = '/' then [] :: longer else longer

/-- The paths of the directories that a path implies, outermost first. -/
def ancestors (path : String) : List String :=
  ((cuts path.toList).filter (· ≠ [])).map String.ofList

/-- What stands before the last slash; nothing for a path without one. -/
def parent (e : Entry) : String := String.ofList ((cuts e.path.toList).getLast?.getD [])

/-- What stands after the last slash. -/
def name (e : Entry) : String :=
  String.ofList ((Text.splitBy (· = '/') e.path.toList).getLast?.getD [])

/-- The directory at `path` that an entry with modification time `mtime` implies. -/
def impliedDirectory (path : String) (mtime : Int) : Entry := ⟨path, path ++ "/", 0, mtime, true⟩

def differs (e f : Entry) : Bool := e.object ≠ f.object || e.size ≠ f.size || e.mtime ≠ f.mtime

end Entry

end OnDemand
