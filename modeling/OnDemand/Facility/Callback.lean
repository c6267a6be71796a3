import OnDemand.Bytes
import OnDemand.Key

/-!
# Callbacks

What the facility tells the program that opened a connection: that bytes of a file are wanted, or no longer
wanted.
-/

namespace OnDemand

/-- The handler a connection was opened with: the number of the channel that takes its callbacks, or none
if they are ignored. -/
abbrev Handler := Option Nat

structure FetchInfo where
  connection : ConnectionKey
  transfer : TransferKey
  identity : Bytes
  offset : Int
  length : Int
  /-- The size of the placeholder to hydrate. -/
  fileSize : Int
  path : Option String
deriving DecidableEq, Repr, Inhabited

structure CancelInfo where
  connection : ConnectionKey
  transfer : TransferKey
  identity : Bytes
  offset : Int
  length : Int
deriving DecidableEq, Repr, Inhabited

end OnDemand
