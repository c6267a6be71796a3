import OnDemand.Bridge.Placeholder
import OnDemand.Catalog.Diff

/-!
# Reconciling placeholders with a catalog

Added entries are created, changed ones updated; an entry that is already there is updated, one that has gone is
created again. What was removed remotely stays in place and is only counted.
-/

namespace OnDemand

/-- How many entries had which fate. -/
structure Tally where
  created : Nat
  updated : Nat
  failed : Nat
  removedRemotely : Nat
deriving DecidableEq, Repr, Inhabited

/-- How an entry came to have its placeholder. -/
inductive Placed where
  | created
  | updated
deriving DecidableEq, Repr

namespace Tally

def zero : Tally := ⟨0, 0, 0, 0⟩

def count {ε : Type} (t : Tally) : Except ε Placed → Tally
  | .ok .created => { t with created := t.created + 1 }
  | .ok .updated => { t with updated := t.updated + 1 }
  | .error _ => { t with failed := t.failed + 1 }

end Tally

/-- The directory that holds the placeholder of `e`. -/
def Entry.parentIn (root : Path) (e : Entry) : Path :=
  ((Text.splitBy (· = '/') e.parent.toList).filter (· ≠ [])).foldl (fun p c => p.join (String.ofList c)) root

def Entry.pathIn (root : Path) (e : Entry) : Path := (e.parentIn root).join e.name

namespace Reconcile

variable {σ : Type} [CloudFacility σ]

/-- Creates the placeholder of `e`, or updates it if it exists. A directory that exists is left as it is. -/
def placeAdded (root : Path) (e : Entry) : Bridge.Act σ PlaceholderError Placed := fun b =>
  let identity := FileIdentity.ofText e.object
  match Bridge.create (e.parentIn root) e.name identity e.size e.mtime e.directory b with
  | (.ok (), b) => (.ok .created, b)
  | (.error (.alreadyExists _ _), b) =>
    if e.directory then (.ok .updated, b)
    else match Bridge.update (e.pathIn root) identity e.size e.mtime b with
      | (.ok (), b) => (.ok .updated, b)
      | (.error failure, b) => (.error failure, b)
  | (.error failure, b) => (.error failure, b)

/-- Updates the placeholder of `e`, or creates it if it has gone. -/
def placeChanged (root : Path) (e : Entry) : Bridge.Act σ PlaceholderError Placed := fun b =>
  match Bridge.update (e.pathIn root) (.ofText e.object) e.size e.mtime b with
  | (.ok (), b) => (.ok .updated, b)
  | (.error (.notFound _ _), b) => placeAdded root e b
  | (.error failure, b) => (.error failure, b)

/-- Runs `place` for every entry in order and counts what comes of it. -/
def placeEach (place : Entry → Bridge.Act σ PlaceholderError Placed) (entries : List Entry)
    (start : Tally × Bridge σ) : Tally × Bridge σ :=
  entries.foldl (fun (tally, b) e =>
    let (outcome, b) := place e b
    (tally.count outcome, b)) start

/-- Brings the placeholders below `root` from one catalog to the next. -/
def run (root : Path) (d : Catalog.Diff) (b : Bridge σ) : Tally × Bridge σ :=
  let (tally, b) := placeEach (placeChanged root) d.changed (placeEach (placeAdded root) d.added (.zero, b))
  ({ tally with removedRemotely := d.removed.length }, b)

end Reconcile

end OnDemand
