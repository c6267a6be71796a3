import OnDemand.Facility.Calls
import OnDemand.Transfer.Basic

/-!
# A facility in memory

The state behind the facility: registered roots, connections, placeholders and transfers, the refusals
planned for the next calls, and a log of every transfer operation.
-/

namespace OnDemand

/-- The calls that can be made to fail. -/
inductive Operation where
  | register
  | unregister
  | connect
  | disconnect
  | create
  | update
  | dehydrate
  | transfer
deriving DecidableEq, Repr, Inhabited

/-- A registration together with the root as it was first written. -/
structure RegisteredRoot where
  path : Path
  registration : Registration
deriving DecidableEq, Repr, Inhabited

structure Connection where
  root : Path
  handler : Handler
deriving DecidableEq, Repr, Inhabited

structure LoggedOperation where
  connection : ConnectionKey
  transfer : TransferKey
  status : Status
  offset : Int
  length : Int
  accepted : Bool
deriving DecidableEq, Repr, Inhabited

structure Facility where
  registrations : Table Route RegisteredRoot
  connections : Table ConnectionKey Connection
  placeholders : Table Route Placeholder
  transfers : Table TransferKey Transfer
  /-- The refusal that the next call of an operation meets, once. -/
  faults : Operation → Option Status
  log : List LoggedOperation
  lastConnection : Int
  lastTransfer : Int
  /-- Decides which of several entries of a table a search meets first. Nothing is known about it. -/
  pick : Nat

namespace Facility

/-- Nothing is registered; the first connection key is 0x1001, the first transfer key 1. -/
def empty : Facility where
  registrations := ∅
  connections := ∅
  placeholders := ∅
  transfers := ∅
  faults := fun _ => none
  log := []
  lastConnection := 0x1000
  lastTransfer := 0
  pick := 0

instance : Inhabited Facility := ⟨empty⟩

/-! ## Looking things up -/

def registration? (f : Facility) (root : Path) : Option RegisteredRoot := f.registrations.get? root.route

def placeholder? (f : Facility) (path : Path) : Option Placeholder := f.placeholders.get? path.route

def isConnected (f : Facility) (root : Path) : Bool := f.connections.values.any (·.root.same root)

/-- The first registered root that `path` is or lies below. -/
def coveringRoot? (f : Facility) (path : Path) : Option RegisteredRoot :=
  f.registrations.values.find? fun r => path.startsWith r.path

/-- The one of `candidates` that a search meets first. Which one that is depends on where the table has put them. -/
def choose? {α : Type} (candidates : List α) (f : Facility) : Option α := candidates[f.pick % candidates.length]?

/-- The facility with the entries of its tables in other places. -/
def rearrange (pick : Nat) (f : Facility) : Facility := { f with pick }

/-- A connection whose root `path` is or lies below. -/
def coveringConnection? (f : Facility) (path : Path) : Option (ConnectionKey × Connection) :=
  f.choose? (f.connections.toList.filter fun e => path.startsWith e.2.root)

def paths (f : Facility) : List Path := f.placeholders.values.map (·.path)

def pendingCount (f : Facility) : Nat := (f.transfers.values.filter Transfer.isPending).length

/-! ## Planned refusals -/

/-- Plans a refusal of the next call of `op`, in place of an earlier plan. -/
def planFault (op : Operation) (status : Status) (f : Facility) : Facility :=
  { f with faults := fun o => if o = op then some status else f.faults o }

def dropFault (op : Operation) (f : Facility) : Facility :=
  { f with faults := fun o => if o = op then none else f.faults o }

/-- Runs `body` unless a refusal is planned for `op`. A call that fails changes nothing but the plan. -/
def attempt {α : Type} (op : Operation) (body : Facility → Except Status (α × Facility)) : Call Facility α := fun f =>
  let g := f.dropFault op
  match f.faults op with
  | some status => (.error status, g)
  | none =>
    match body g with
    | .error status => (.error status, g)
    | .ok (a, h) => (.ok a, h)

end Facility

end OnDemand
