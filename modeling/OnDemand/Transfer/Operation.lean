import OnDemand.Bytes
import OnDemand.Key
import OnDemand.Status

/-!
# Transfer operations

One answer to an outstanding fetch: a segment of its data, or the failure that ends it.
-/

namespace OnDemand

structure TransferOperation where
  connection : ConnectionKey
  transfer : TransferKey
  status : Status
  buffer : Option Bytes
  offset : Int
  length : Int
deriving DecidableEq, Repr, Inhabited

namespace TransferOperation

def data (connection : ConnectionKey) (transfer : TransferKey) (buffer : Bytes) (offset : Int) :
    TransferOperation :=
  ⟨connection, transfer, .success, some buffer, offset, buffer.length⟩

def failure (connection : ConnectionKey) (transfer : TransferKey) (offset : Int) (status : Status) :
    TransferOperation :=
  ⟨connection, transfer, status, none, offset, 0⟩

end TransferOperation

end OnDemand
