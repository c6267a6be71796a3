import OnDemand.Facility.Operations

/-!
# Application reads

A read of a file with content returns at once. A read of a file without content joins the pending transfer of
the file, or opens one and raises a fetch callback, and then waits for the transfer to end. A read that gives
up removes the transfer it waited for and raises a cancel callback.
-/

namespace OnDemand

inductive ReadError where
  | notFound (path : Path)
  | directory (path : Path)
  | notConnected (path : Path)
  | failed (path : Path) (status : Status)
  | evicted (path : Path)
  | cancelled
  | timedOut (path : Path)
deriving DecidableEq, Repr

def ReadError.message : ReadError → String
  | notFound path => path.text
  | directory path => s!"{path} is a directory"
  | notConnected path => s!"{path}: {Status.providerNotRunning}"
  | failed path status => s!"hydrating {path} failed: {status}"
  | evicted path => s!"{path} was evicted"
  | cancelled => "transfer cancelled"
  | timedOut path => s!"hydrating {path} timed out"

/-- A read that waits for a transfer. -/
structure Reader where
  path : Path
  offset : Nat
  length : Nat
  connection : ConnectionKey
  transfer : TransferKey
  identity : FileIdentity
  size : Nat
deriving DecidableEq, Repr

/-- A callback on its way to the handler of a connection. -/
structure Raised (α : Type) where
  handler : Handler
  info : α

/-- How a read begins. -/
inductive ReadStart where
  | returned (result : Except ReadError Bytes)
  | joined (reader : Reader)
  | opened (reader : Reader) (fetch : Raised FetchInfo)

namespace Facility

/-- A pending transfer of `path`. -/
def pendingFor? (f : Facility) (path : Path) : Option (TransferKey × Transfer) :=
  f.choose? (f.transfers.toList.filter fun e => e.2.path.same path && e.2.isPending)

def startRead (path : Path) (offset length : Nat) (f : Facility) : ReadStart × Facility :=
  match f.placeholder? path with
  | none => (.returned (.error (.notFound path)), f)
  | some p =>
    if p.isDirectory then (.returned (.error (.directory path)), f)
    else match p.content with
      | some content => (.returned (.ok (content.window offset length)), f)
      | none =>
        let size := p.metadata.byteSize
        match f.pendingFor? path with
        | some (transfer, t) => (.joined ⟨path, offset, length, t.connection, transfer, p.identity, size⟩, f)
        | none =>
          match f.coveringConnection? path with
          | none => (.returned (.error (.notConnected path)), f)
          | some (connection, c) =>
            let (transfer, g) := f.issueTransfer connection path size
            let info : FetchInfo :=
              ⟨connection, transfer, p.identity.bytes, 0, size, size, some path.text⟩
            (.opened ⟨path, offset, length, connection, transfer, p.identity, size⟩ ⟨c.handler, info⟩, g)

/-- What a waiting read returns, once its transfer has ended or is gone. -/
def readResult? (r : Reader) (f : Facility) : Option (Except ReadError Bytes) :=
  match f.transfers.get? r.transfer with
  | none => some (.error .cancelled)
  | some t =>
    match t.phase with
    | .pending => none
    | .failed status => some (.error (.failed r.path status))
    | .completed =>
      match (f.placeholder? r.path).bind (·.content) with
      | some content => some (.ok (content.window r.offset r.length))
      | none => some (.error (.evicted r.path))

/-- Removes the transfer that `r` waits for; the connection, if it is still there, is told. -/
def giveUp (r : Reader) (f : Facility) : Option (Raised CancelInfo) × Facility :=
  let raised := (f.connections.get? r.connection).map fun c =>
    (⟨c.handler, ⟨r.connection, r.transfer, r.identity.bytes, 0, r.size⟩⟩ : Raised CancelInfo)
  (raised, { f with transfers := f.transfers.erase r.transfer })

end Facility

end OnDemand
