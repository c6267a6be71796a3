import OnDemand.Path
import OnDemand.Transfer.Coverage
import OnDemand.Transfer.Operation

/-!
# Transfers

A transfer collects the whole of one file. Its segments may come in any order and overlap; nothing of it
reaches the placeholder before the last missing byte has come.
-/

namespace OnDemand

inductive Phase where
  | pending
  | completed
  | failed (status : Status)
deriving DecidableEq, Repr, Inhabited

structure Transfer where
  connection : ConnectionKey
  path : Path
  length : Nat
  /-- The received bytes in place, and zeros elsewhere; empty once the transfer has ended. -/
  buffer : Bytes
  received : Coverage
  phase : Phase
deriving DecidableEq, Repr, Inhabited

namespace Transfer

def start (connection : ConnectionKey) (path : Path) (length : Nat) : Transfer :=
  ⟨connection, path, length, List.replicate length 0, [], .pending⟩

def isPending (t : Transfer) : Bool := t.phase = .pending

def receive (t : Transfer) (offset : Nat) (data : Bytes) : Transfer :=
  { t with
    buffer := t.buffer.splice offset data
    received := t.received.add ⟨offset, offset + data.length⟩ }

def isComplete (t : Transfer) : Bool := t.received.isComplete t.length

def fail (t : Transfer) (status : Status) : Transfer :=
  { t with phase := .failed status, buffer := [] }

def complete (t : Transfer) : Transfer :=
  { t with phase := .completed, buffer := [] }

end Transfer

end OnDemand
