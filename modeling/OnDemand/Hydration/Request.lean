import OnDemand.Facility.Callback
import OnDemand.Identity
import OnDemand.Word

/-!
# Hydration requests

A fetch callback, detached from the facility. What it owes is the requested range cut off at the end of the
file.
-/

namespace OnDemand

structure Request where
  connection : ConnectionKey
  transfer : TransferKey
  identity : FileIdentity
  offset : Nat
  length : Nat
  fileSize : Nat
  path : Option String
deriving DecidableEq, Repr, Inhabited

namespace Request

/-- Negative numbers in a callback count as zero. -/
def ofFetch (info : FetchInfo) : Request :=
  ⟨info.connection, info.transfer, ⟨info.identity⟩, info.offset.toNat, info.length.toNat, info.fileSize.toNat,
    info.path⟩

/-- The end of the requested range. -/
def stop (r : Request) : Nat := Word.addCapped r.offset r.length

/-- The end of the bytes that have to be delivered. -/
def owedStop (r : Request) : Nat := max (min r.stop r.fileSize) r.offset

end Request

end OnDemand
