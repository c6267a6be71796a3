import OnDemand.Toml.Value

/-!
# TOML tables

Where keys and headers put their values. A key can be given once; a dotted key makes the tables on its way and adds to
those that dotted keys have made; a header opens a table that no other header or dotted key has opened.
-/

namespace OnDemand.Toml.Items

def get? (items : Items) (key : String) : Option Value := (items.find? (·.1 = key)).map (·.2)

def put (items : Items) (key : String) (v : Value) : Items :=
  if (items.get? key).isSome then items.map fun e => if e.1 = key then (key, v) else e
  else items ++ [(key, v)]

/-- Replaces the last element of a list by what `f` makes of it. -/
def updateLast? {α : Type} (f : α → Option α) : List α → Option (List α)
  | [] => none
  | [a] => (f a).map ([·])
  | a :: rest => (updateLast? f rest).map (a :: ·)

def add? (items : Items) (key : String) (v : Value) : Option Items :=
  if (items.get? key).isSome then none else some (items ++ [(key, v)])

/-- Adds `v` under a dotted key. Its last table has to be one that dotted keys have made. -/
def addDotted? (path : List String) (key : String) (v : Value) (items : Items) : Option Items :=
  match path with
  | [] => add? items key v
  | step :: rest =>
    let deeper (kind : TableKind) (inner : Items) : Option Items :=
      if rest = [] ∧ kind ≠ .dotted then none else addDotted? rest key v inner
    match items.get? step with
    | none => (deeper .dotted []).map fun inner => put items step (.table .dotted inner)
    | some (.table kind inner) =>
      if kind = .dotted ∨ kind = .implied then (deeper kind inner).map fun inner => put items step (.table kind inner)
      else none
    | some (.tables elements) =>
      (updateLast? (deeper .defined) elements).map fun elements => put items step (.tables elements)
    | some _ => none

/-- Changes the items of the table at `path`, making the tables on the way. -/
def changeAt? (path : List String) (f : Items → Option Items) (items : Items) : Option Items :=
  match path with
  | [] => f items
  | step :: rest =>
    match items.get? step with
    | none => (changeAt? rest f []).map fun inner => put items step (.table .implied inner)
    | some (.table kind inner) =>
      if kind = .closed then none else (changeAt? rest f inner).map fun inner => put items step (.table kind inner)
    | some (.tables elements) =>
      (updateLast? (changeAt? rest f) elements).map fun elements => put items step (.tables elements)
    | some _ => none

/-- Keys with their values, in the order in which they are written: the path of a dotted key, its last part, its value. -/
abbrev Assignments := List (List String × String × Value)

def addAll? (assignments : Assignments) (items : Items) : Option Items :=
  assignments.foldl (fun items (path, key, v) => items.bind (addDotted? path key v)) (some items)

/-- Opens the table named by a header and fills it. -/
def defineTable? (path : List String) (key : String) (assignments : Assignments) (items : Items) : Option Items :=
  changeAt? path (fun parent =>
    match get? parent key with
    | none => (addAll? assignments []).map fun inner => put parent key (.table .defined inner)
    | some (.table .implied inner) =>
      (addAll? assignments inner).map fun inner => put parent key (.table .defined inner)
    | some _ => none) items

/-- Appends an element to the array of tables named by a header. -/
def appendTable? (path : List String) (key : String) (assignments : Assignments) (items : Items) : Option Items :=
  changeAt? path (fun parent =>
    match get? parent key with
    | none => (addAll? assignments []).map fun inner => put parent key (.tables [inner])
    | some (.tables elements) =>
      (addAll? assignments []).map fun inner => put parent key (.tables (elements ++ [inner]))
    | some _ => none) items

end OnDemand.Toml.Items
