import OnDemand.Path
import OnDemand.Table
import OnDemand.Text.Utf8

/-!
# A tree of local files

Directories, plain files and symbolic links by their places. Two directories hold everything else: the root, where
absolute paths begin, and the working directory, where relative ones do. A path is followed name by name; links are
replaced by their targets, up to a limit. What a path ends with decides what can be done there: only a name can be made
new, and a slash after it asks for a directory.
-/

namespace OnDemand

inductive FileNode where
  | directory
  | file (content : Bytes)
  | link (target : String)
deriving DecidableEq, Repr

inductive FileError where
  | missing
  | exists
  | notADirectory
  | isADirectory
  | notEmpty
  | nameTooLong
  | tooManyLinks
  | invalidName
deriving DecidableEq, Repr

/-- The names that lead to a file, those of the two outermost directories included. -/
abbrev Place := List String

structure FileTree where
  nodes : Table Place FileNode

namespace FileTree

/-- The name of the root. No path can mention it, because of its slash. -/
def rootName : String := "/"

/-- The name of the working directory, which no path can mention either. -/
def workingName : String := "./"

def empty : FileTree :=
  ⟨((∅ : Table Place FileNode).insert [rootName] .directory).insert [workingName] .directory⟩

instance : Inhabited FileTree := ⟨empty⟩

def node? (t : FileTree) (place : Place) : Option FileNode := t.nodes.get? place

def put (t : FileTree) (place : Place) (node : FileNode) : FileTree := ⟨t.nodes.insert place node⟩

def erase (t : FileTree) (place : Place) : FileTree := ⟨t.nodes.erase place⟩

/-- The files of a directory by their names. -/
def children (t : FileTree) (place : Place) : List (String × FileNode) :=
  t.nodes.toList.filterMap fun (other, node) =>
    match other.getLast? with
    | some name => if other.dropLast = place then some (name, node) else none
    | none => none

/-- Takes away everything below `place`, which itself stays. -/
def clear (t : FileTree) (place : Place) : FileTree :=
  ⟨t.nodes.filter fun other _ => other = place || !place.isPrefixOf other⟩

theorem node?_put (t : FileTree) (place other : Place) (node : FileNode) :
    (t.put place node).node? other = if other = place then some node else t.node? other := by
  simp only [put, node?, Table.get?_insert, Std.LawfulEqCmp.compare_eq_iff_eq]

theorem node?_erase (t : FileTree) (place other : Place) :
    (t.erase place).node? other = if other = place then none else t.node? other := by
  simp only [erase, node?, Table.get?_erase, Std.LawfulEqCmp.compare_eq_iff_eq]

/-! ## Following paths -/

/-- What a path or the target of a link says: where it begins if it is absolute, the steps, and whether a slash ends it. -/
structure Way where
  isAbsolute : Bool
  steps : List String
  slash : Bool
deriving DecidableEq, Repr

def Way.ofText (text : String) : Way :=
  let segments := (Text.splitBy (· = '/') text.toList).map String.ofList
  ⟨text.toList.head? = some '/', segments.filter (· ≠ ""), text.toList.getLast? = some '/'⟩

/-- The longest name, in bytes. -/
def maxName : Nat := 255

/-- The longest path, in bytes. -/
def maxPath : Nat := 4095

/-- The most links that one path may lead through. -/
def maxLinks : Nat := 40

/-- Where a path leads: to something, or to a free name in an existing directory; `slash` tells whether it asks for a
directory. -/
inductive Target where
  | found (place : Place) (node : FileNode) (slash : Bool)
  | free (place : Place) (slash : Bool)
deriving DecidableEq, Repr

/-- Follows `steps` from the directory `here`. A link at the end is followed only if `through` holds. -/
def walk (t : FileTree) (through : Bool) (links : Nat) (here : Place) (steps : List String) (slash : Bool) :
    Except FileError Target :=
  match steps with
  | [] => .ok (.found here .directory slash)
  | step :: rest =>
    if step = "." then walk t through links here rest slash
    else if step = ".." then walk t through links here.dropLast rest slash
    else if maxName < (Text.Utf8.encode step).length then .error .nameTooLong
    else
      let place := here ++ [step]
      match t.node? place with
      | none => if rest = [] then .ok (.free place slash) else .error .missing
      | some .directory => walk t through links place rest slash
      | some (.file content) =>
        if rest = [] then .ok (.found place (.file content) slash) else .error .notADirectory
      | some (.link target) =>
        if rest = [] ∧ !through then .ok (.found place (.link target) slash)
        else match links with
          | 0 => .error .tooManyLinks
          | links + 1 =>
            let way := Way.ofText target
            let slash := slash || (rest = [] && way.slash)
            if way.isAbsolute then walk t through links [] (rootName :: way.steps ++ rest) slash
            else walk t through links here (way.steps ++ rest) slash
termination_by (links, steps.length)

/-- The way of a path with where it begins. -/
def stepsFrom (way : Way) : List String := (if way.isAbsolute then rootName else workingName) :: way.steps

/-- The way of a text that can be a path: one that has bytes, but not too many, and no NUL among them. -/
def way? (text : String) : Except FileError Way :=
  if text.toList.contains '\x00' then .error .invalidName
  else if maxPath < (Text.Utf8.encode text).length then .error .nameTooLong
  else if text = "" then .error .missing
  else .ok (.ofText text)

/-- Where a path leads; a link at its end is followed if `through` holds for its slash. -/
def find (t : FileTree) (through : Bool → Bool) (path : Path) : Except FileError Target :=
  match way? path.text with
  | .error e => .error e
  | .ok way => t.walk (through way.slash) maxLinks [] (stepsFrom way) way.slash

/-- Where a path leads without its last link being followed. -/
def findHere (t : FileTree) (path : Path) : Except FileError Target := t.find (fun _ => false) path

/-- What is found where a directory is asked for by a slash cannot be a plain file. -/
def asWanted : Target → Except FileError Target
  | .found _ (.file _) true => .error .notADirectory
  | target => .ok target

/-- Where a path leads, through a link at its end too. -/
def resolve (t : FileTree) (path : Path) : Except FileError Target :=
  match t.find (fun _ => true) path with
  | .error e => .error e
  | .ok target => asWanted target

/-- Where a path leads; a link at its end is followed only if a slash comes after it. -/
def look (t : FileTree) (path : Path) : Except FileError Target :=
  match t.find (fun slash => slash) path with
  | .error e => .error e
  | .ok target => asWanted target

/-- The path of a place without links and dots. -/
def pathOf : Place → Path
  | first :: names => ⟨(if first = rootName then "/" else "") ++ "/".intercalate names⟩
  | [] => ⟨""⟩

/-- The path without links and dots of what a path of any length leads to. -/
def canonical? (t : FileTree) (path : Path) : Option Path :=
  if path.text.toList.contains '\x00' || path.text = "" then none
  else
    let way := Way.ofText path.text
    match t.walk true maxLinks [] (stepsFrom way) way.slash with
    | .ok (.found _ (.file _) true) => none
    | .ok (.found place _ _) => some (pathOf place)
    | _ => none

def isDirectory (t : FileTree) (path : Path) : Bool :=
  match t.resolve path with
  | .ok (.found _ .directory _) => true
  | _ => false

def makeDirectory (t : FileTree) (path : Path) : Except FileError FileTree :=
  match t.findHere path with
  | .error e => .error e
  | .ok (.free place _) => .ok (t.put place .directory)
  | .ok (.found _ _ _) => .error .exists

/-- Makes the first of the paths whose parent is there, or stops at one that is a directory already; returns those before
it, last first. -/
def makeOutermost (t : FileTree) (pending : List Path) : List Path → Except FileError (List Path × FileTree)
  | [] => .ok (pending, t)
  | path :: outer =>
    match t.makeDirectory path with
    | .ok t => .ok (pending, t)
    | .error .missing => makeOutermost t (path :: pending) outer
    | .error .exists => if t.isDirectory path then .ok (pending, t) else .error .exists
    | .error e => .error e

/-- Makes the paths in order; those made before a failure stay. -/
def makeInOrder (t : FileTree) : List Path → Except FileError Unit × FileTree
  | [] => (.ok (), t)
  | path :: rest =>
    match t.makeDirectory path with
    | .ok t => makeInOrder t rest
    | .error e => if e = .exists && t.isDirectory path then makeInOrder t rest else (.error e, t)

/-- Makes every directory on the way to `path` that is not there yet. Nothing has to be made for the empty path. -/
def makeDirectories (t : FileTree) (path : Path) : Except FileError Unit × FileTree :=
  if path.text = "" then (.ok (), t)
  else match t.makeOutermost [] path.ancestors with
    | .error e => (.error e, t)
    | .ok (pending, t) => t.makeInOrder pending

/-- Writes a plain file, through a link too, in place of one that is there. -/
def writeFile (t : FileTree) (path : Path) (content : Bytes) : Except FileError FileTree :=
  match t.find (fun _ => true) path with
  | .error e => .error e
  | .ok (.found _ .directory _) | .ok (.found _ _ true) | .ok (.free _ true) => .error .isADirectory
  | .ok (.found place _ false) | .ok (.free place false) => .ok (t.put place (.file content))

/-- Makes a link, whose target need not be there but has to be a path. -/
def makeLink (t : FileTree) (path : Path) (target : String) : Except FileError FileTree :=
  match way? target, t.findHere path with
  | .error e, _ | _, .error e => .error e
  | _, .ok (.found _ _ _) => .error .exists
  | _, .ok (.free _ true) => .error .missing
  | _, .ok (.free place false) => .ok (t.put place (.link target))

/-! ## Removing files -/

/-- Removes an empty directory that is named by the last step of the path. -/
def removeDirectory (t : FileTree) (path : Path) : Except FileError FileTree :=
  match t.findHere path with
  | .error e => .error e
  | .ok (.free _ _) => .error .missing
  | .ok (.found _ (.file _) _) | .ok (.found _ (.link _) _) => .error .notADirectory
  | .ok (.found place .directory _) =>
    match (Way.ofText path.text).steps.getLast? with
    | some "." => .error .invalidName
    | some ".." => .error .notEmpty
    | _ => if (t.children place).isEmpty then .ok (t.erase place) else .error .notEmpty

/-- Removes a plain file or a link. -/
def removeFile (t : FileTree) (path : Path) : Except FileError FileTree :=
  match t.findHere path with
  | .error e => .error e
  | .ok (.free _ _) => .error .missing
  | .ok (.found _ .directory _) => .error .isADirectory
  | .ok (.found _ _ true) => .error .notADirectory
  | .ok (.found place _ false) => .ok (t.erase place)

/-- Removes a directory with everything below it; a link goes without its target. What is below goes first, so the
directory itself stays if the path does not name it, and it does not matter if the path does not lead to it any more. -/
def removeTree (t : FileTree) (path : Path) : Except FileError Unit × FileTree :=
  match t.look path with
  | .error e => (.error e, t)
  | .ok (.free _ _) => (.error .missing, t)
  | .ok (.found _ (.file _) _) => (.error .notADirectory, t)
  | .ok (.found place (.link _) _) => (.ok (), t.erase place)
  | .ok (.found place .directory _) =>
    let t := t.clear place
    match t.removeDirectory path with
    | .ok t => (.ok (), t)
    | .error .missing => (.ok (), t)
    | .error e => (.error e, t)

def readFile (t : FileTree) (path : Path) : Except FileError Bytes :=
  match t.resolve path with
  | .error e => .error e
  | .ok (.found _ (.file content) _) => .ok content
  | .ok (.found _ _ _) => .error .isADirectory
  | .ok (.free _ _) => .error .missing

end FileTree

end OnDemand
