import OnDemand.FileTree
import OnDemand.Store.Basic
import OnDemand.Store.Key

/-!
# Objects as files

Objects kept as files below a root directory. A prefix that leads nowhere, or through a plain file, has nothing
below it; a name that is too long or a circle of links is an error.
-/

namespace OnDemand.Store

structure Files where
  root : Path

namespace Files

/-- A key without the slashes at its end. -/
def bare (key : String) : String := String.ofList (Text.trimEndBy (· = '/') key.toList)

/-- The file of a key in normal form. -/
def path (s : Files) (key : String) : Path := s.root.join (bare key)

/-- The size told for a directory. -/
def directorySize : Nat := 4096

/-! ## Listing -/

/-- The names in the directory of a key, those of directories first; none if there is no such directory. -/
def names (s : Files) (t : FileTree) (directory : String) : Except StoreError (List (String × FileNode)) :=
  match t.resolve (s.path directory) with
  | .ok (.found place .directory _) =>
    let (directories, others) := (t.children place).partition (·.2 = .directory)
    .ok (directories ++ others)
  | .ok _ | .error .missing | .error .notADirectory => .ok []
  | .error _ => .error .unavailable

/-- The key listed for a name in a directory: in normal form, without `.` segments at its front, and with slashes in place
of backslashes. -/
def keyOf (directory name : String) : String :=
  let key := (bare directory ++ "/" ++ name).toList.map fun c => if c = '\\' then '/' else c
  let segments := (Text.splitBy (· = '/') key).dropWhile fun segment => segment = [] || segment = ['.']
  normalKey (String.ofList (['/'].intercalate segments))

/-- Lists a directory and, by their keys, the directories in it. A directory listed under the same key is not listed
again. -/
def listFrom (s : Files) (t : FileTree) : Nat → String → Except StoreError (List String)
  | 0, _ => .error .unavailable
  | fuel + 1, directory => do
    let keys ← (← s.names t directory).mapM fun (name, node) =>
      let key := keyOf directory name
      if node = .directory then
        if key ++ "/" = directory then .ok [] else listFrom s t fuel (key ++ "/")
      else .ok [key]
    return keys.flatten

/-- The keys of the files below a prefix. A key that gets longer from directory to directory ends up too long for a path, so
the depth is bounded. -/
def list (s : Files) (t : FileTree) (key : String) : Except StoreError (List String) :=
  s.listFrom t (2 * FileTree.maxPath) (normalKey key)

/-! ## Objects -/

def size (s : Files) (t : FileTree) (key : String) : Except StoreError Nat :=
  let key := normalKey key
  if key = "/" then .ok 0
  else match t.resolve (s.path key) with
    | .ok (.found _ (.file body) _) => if isDirectoryKey key then .error .missing else .ok body.length
    | .ok (.found _ .directory _) => .ok directorySize
    | .ok _ => .error .missing
    | .error .missing => .error .missing
    | .error _ => .error .unavailable

def read (s : Files) (t : FileTree) (key : String) : Except StoreError Bytes :=
  let key := normalKey key
  if isDirectoryKey key then .error .unavailable
  else (t.readFile (s.path key)).mapError fun e => if e = .missing then .missing else .unavailable

/-- Writes an object, making the directories on the way to it; a directory cannot be written. -/
def write (s : Files) (t : FileTree) (key : String) (body : Bytes) : FileTree :=
  let key := normalKey key
  if isDirectoryKey key then t
  else
    let path := s.path key
    let t := match path.ancestors with
      | _ :: parent :: _ => (t.makeDirectories parent).2
      | _ => t
    match t.writeFile path body with
    | .ok t => t
    | .error _ => t

/-- Deletes an object or an empty directory. What cannot be found through links is left alone. -/
def delete (s : Files) (t : FileTree) (key : String) : FileTree :=
  let path := s.path (normalKey key)
  let removed : Except FileError FileTree := match t.resolve path with
    | .error e => .error e
    | .ok (.free _ _) => .error .missing
    | .ok (.found _ .directory _) => t.removeDirectory path
    | .ok (.found _ _ _) => t.removeFile path
  match removed with
  | .ok t => t
  | .error _ => t

def store (s : Files) (t : FileTree) : ObjectStore where
  list := s.list t
  probe key := (s.names t (normalKey key)).map fun _ => ()
  size := s.size t
  read := s.read t

end Files

end OnDemand.Store
