import OnDemand.Facility.Recorded
import OnDemand.Session.Action

/-!
# Answers of a session

What each action of a script comes to, with the calls that reached the facility through the bridge since the last
answer.
-/

namespace OnDemand

structure LiveView where
  contains : Bool
  closed : Bool
  size : Nat
  root : Option Path
deriving DecidableEq, Repr

/-- What a script asks for by a name that means nothing. -/
inductive Unknown where
  | connection
  | channel
  | feed
  | read
deriving DecidableEq, Repr

inductive Outcome where
  | done
  | flag (value : Bool)
  | count (value : Nat)
  | unknown (what : Unknown)
  | registration (registration : Option Registration)
  | registrationError (cause : RegistrationError)
  | connected (connection : OpenConnection)
  | connectionError (cause : ConnectionError)
  | placeholderError (cause : PlaceholderError)
  | transferError (cause : TransferError)
  | platform (status : Status)
  /-- A failure of the store or the daemon, by its message. -/
  | failure (message : String)
  | live (view : LiveView)
  | placeholder (placeholder : Option Placeholder)
  | paths (paths : List Path)
  | opened (transfer : Facility.BegunTransfer)
  | log (records : List LoggedOperation)
  | request (request : Option Request)
  /-- No request came while the script waited. -/
  | nothing
  | counters (counters : Counters)
  | read (result : Except ReadError Bytes)
  | readReturned
  | readWaiting
  | readJoined
  | bytes (bytes : Bytes)
  | entries (entries : List Entry)
  | backend (kind : BackendKind)
  | report (report : Tally)

structure Answered where
  outcome : Outcome
  calls : List Call.Note

inductive Answer where
  | act (outcome : Outcome)
  | workers (events : List Answered) (endedAt : Option Nat)
  | served (events : List Answered) (endedAt : Option Nat) (result : Except ServiceError Counters)
  | badConfig

/-- The state that a session leaves behind. -/
structure Ending where
  roots : List (RegisteredRoot × Bool)
  placeholders : List Placeholder
  log : List LoggedOperation
  pending : Nat
  live : Nat

end OnDemand
