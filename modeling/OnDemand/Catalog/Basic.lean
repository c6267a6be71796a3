import OnDemand.Catalog.Entry
import OnDemand.Table

/-!
# Catalogs

A snapshot of the remote namespace: entries by path, in the order of paths, so that a directory comes before
everything below it. Inserting an entry adds the directories that it implies and that are not there yet.
-/

namespace OnDemand

structure Catalog where
  entries : Table String Entry
deriving DecidableEq

namespace Catalog

def empty : Catalog := ⟨∅⟩

instance : Inhabited Catalog := ⟨empty⟩

def get? (c : Catalog) (path : String) : Option Entry := c.entries.get? path

def size (c : Catalog) : Nat := c.entries.size

def isEmpty (c : Catalog) : Bool := c.size == 0

def toList (c : Catalog) : List Entry := c.entries.values

def paths (c : Catalog) : List String := c.entries.keys

/-- Adds the directory at `path` unless there is an entry already. -/
def imply (mtime : Int) (entries : Table String Entry) (path : String) : Table String Entry :=
  if entries.contains path then entries else entries.insert path (.impliedDirectory path mtime)

def insert (c : Catalog) (e : Entry) : Catalog :=
  ⟨((Entry.ancestors e.path).foldl (imply e.mtime) c.entries).insert e.path e⟩

def ofList (l : List Entry) : Catalog := l.foldl insert empty

end Catalog

end OnDemand
