import OnDemand.Key
import OnDemand.Path
import OnDemand.Status

/-!
# Failures of the bridge

Every failure keeps the facility's status. The statuses of a call are sorted into the causes that its caller
can tell apart; anything else is a general refusal.
-/

namespace OnDemand

inductive RegistrationError where
  | notADirectory (path : Path)
  | rejected (path : Path) (status : Status)
  | unregisterRejected (path : Path) (status : Status)
deriving DecidableEq, Repr

namespace RegistrationError

def message : RegistrationError → String
  | notADirectory path => s!"sync root {path} is not a local directory"
  | rejected path status => s!"registering sync root {path}: {status}"
  | unregisterRejected path status => s!"unregistering sync root {path}: {status}"

def status? : RegistrationError → Option Status
  | notADirectory _ => none
  | rejected _ status | unregisterRejected _ status => some status

end RegistrationError

inductive ConnectionError where
  | notRegistered (path : Path) (status : Status)
  | alreadyConnected (path : Path) (status : Status)
  | failed (path : Path) (status : Status)
deriving DecidableEq, Repr

namespace ConnectionError

def classify (path : Path) (status : Status) : ConnectionError :=
  if status ∈ [.notFound, .notACloudFile, .fileNotFound, .pathNotFound] then notRegistered path status
  else if status = .alreadyConnected then alreadyConnected path status
  else failed path status

def message : ConnectionError → String
  | notRegistered path status => s!"sync root {path} is not registered ({status})"
  | alreadyConnected path status => s!"sync root {path} is already connected ({status})"
  | failed path status => s!"connecting sync root {path}: {status}"

def status : ConnectionError → Status
  | notRegistered _ status | alreadyConnected _ status | failed _ status => status

end ConnectionError

inductive PlaceholderError where
  | notFound (path : Path) (status : Status)
  | alreadyExists (path : Path) (status : Status)
  | openDenied (path : Path) (status : Status)
  | inUse (path : Path) (status : Status)
  | metadataRejected (path : Path) (status : Status)
deriving DecidableEq, Repr

namespace PlaceholderError

def classify (path : Path) (status : Status) : PlaceholderError :=
  if status ∈ [.fileNotFound, .pathNotFound, .notACloudFile] then notFound path status
  else if status = .alreadyExists then alreadyExists path status
  else if status = .accessDenied then openDenied path status
  else if status ∈ [.inUse, .sharingViolation] then inUse path status
  else metadataRejected path status

def message : PlaceholderError → String
  | notFound path status => s!"{path} not found ({status})"
  | alreadyExists path status => s!"{path} already exists ({status})"
  | openDenied path status => s!"opening {path} denied ({status})"
  | inUse path status => s!"{path} is in use and cannot be evicted ({status})"
  | metadataRejected path status => s!"placeholder metadata for {path} rejected ({status})"

def status : PlaceholderError → Status
  | notFound _ status | alreadyExists _ status | openDenied _ status | inUse _ status
  | metadataRejected _ status => status

end PlaceholderError

inductive TransferError where
  /-- The key refers to nothing live; without a status when the facility was not asked. -/
  | staleKey (connection : ConnectionKey) (transfer : TransferKey) (status : Option Status)
  | rejected (connection : ConnectionKey) (transfer : TransferKey) (status : Status)
deriving DecidableEq, Repr

namespace TransferError

def classify (connection : ConnectionKey) (transfer : TransferKey) (status : Status) : TransferError :=
  if status.saysStale then staleKey connection transfer (some status) else rejected connection transfer status

def isStale : TransferError → Bool
  | staleKey _ _ _ => true
  | rejected _ _ _ => false

def message : TransferError → String
  | staleKey connection transfer _ => s!"transfer {transfer} on connection {connection} is stale"
  | rejected connection transfer status => s!"transfer {transfer} on connection {connection} rejected ({status})"

def status? : TransferError → Option Status
  | staleKey _ _ status => status
  | rejected _ _ status => some status

end TransferError

end OnDemand
