import OnDemand.Bridge.Basic
import OnDemand.Word

/-!
# Answering fetches

A fetch is answered by segments of data or by one failure. Offsets beyond a signed word never reach the
facility, nor do answers on a connection that has been closed.
-/

namespace OnDemand

/-- One answer to a fetch. -/
inductive Completion where
  | data (offset : Nat) (bytes : Bytes)
  | failure (offset : Nat) (status : Status)
deriving DecidableEq, Repr

/-- A success cannot fail a transfer. -/
def Status.asFailure (s : Status) : Status := if s.isSuccess then .unsuccessful else s

def Completion.offset : Completion → Nat
  | data offset _ | failure offset _ => offset

def Completion.operation (connection : ConnectionKey) (transfer : TransferKey) : Completion → TransferOperation
  | data offset bytes => .data connection transfer bytes offset
  | failure offset status => .failure connection transfer offset status.asFailure

namespace Bridge

variable {σ : Type} [CloudFacility σ]

/-- Sends `op` unless its connection has been closed. -/
def execute (op : TransferOperation) : Act σ TransferError Unit := fun b =>
  if b.live.isClosed op.connection then (.error (.staleKey op.connection op.transfer none), b)
  else ask (CloudFacility.executeTransfer op) (.classify op.connection op.transfer) b

def deliver (connection : ConnectionKey) (transfer : TransferKey) (c : Completion) : Act σ TransferError Unit :=
  if Word.fitsSigned c.offset then execute (c.operation connection transfer)
  else refuse (.rejected connection transfer .invalidArgument)

/-- Hands `bytes` over as the content from `offset` on. -/
def complete (connection : ConnectionKey) (transfer : TransferKey) (bytes : Bytes) (offset : Nat) :
    Act σ TransferError Unit :=
  deliver connection transfer (.data offset bytes)

/-- Ends the transfer with `status`. -/
def fail (connection : ConnectionKey) (transfer : TransferKey) (offset : Nat) (status : Status) :
    Act σ TransferError Unit :=
  deliver connection transfer (.failure offset status)

end Bridge

end OnDemand
