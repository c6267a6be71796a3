import OnDemand.Catalog.Basic

/-!
# Differences of catalogs

What has to be added, changed and removed to go from one catalog to a newer one, each in the order of paths. A
directory that stays is never changed.
-/

namespace OnDemand

structure Catalog.Diff where
  added : List Entry
  changed : List Entry
  removed : List String
deriving DecidableEq, Repr, Inhabited

namespace Catalog.Diff

def isEmpty (d : Catalog.Diff) : Bool := d.added.isEmpty && d.changed.isEmpty && d.removed.isEmpty

end Catalog.Diff

namespace Catalog

/-- Whether `e` is a file that `older` has with other contents. -/
def changes (older : Catalog) (e : Entry) : Bool :=
  (older.get? e.path).any fun old => !e.directory && old.differs e

def diff (older newer : Catalog) : Catalog.Diff where
  added := newer.toList.filter fun e => (older.get? e.path).isNone
  changed := newer.toList.filter older.changes
  removed := older.paths.filter fun path => (newer.get? path).isNone

/-- The entries of `c` after `d`: without the removed paths, and with the added and changed entries stored under
their paths. -/
def patch (c : Catalog) (d : Catalog.Diff) : Catalog :=
  let kept := c.entries.filter fun path _ => !d.removed.contains path
  ⟨(d.added ++ d.changed).foldl (fun t e => t.insert e.path e) kept⟩

end Catalog

end OnDemand
