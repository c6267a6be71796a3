import OnDemand.Facility.Basic

/-!
# The calls on the facility in memory

Each call is a function from the state to a refusal or the next state, run by `Facility.attempt`. Unregistering
removes the placeholders below the root; disconnecting fails every pending transfer of the connection.
-/

namespace OnDemand.Facility

def check (condition : Bool) (status : Status) : Except Status Unit :=
  if condition then .ok () else .error status

def register (root : Path) (registration : Registration) : Call Facility Unit :=
  attempt .register fun f =>
    let written := ((f.registration? root).map (·.path)).getD root
    .ok ((), { f with registrations := f.registrations.insert root.route ⟨written, registration⟩ })

def unregister (root : Path) : Call Facility Unit :=
  attempt .unregister fun f => do
    check (f.registration? root).isSome .notFound
    check (!f.isConnected root) .inUse
    return ((), { f with
      registrations := f.registrations.erase root.route
      placeholders := f.placeholders.filter fun route _ => !root.route.isPrefixOf route })

def connect (root : Path) (handler : Handler) : Call Facility ConnectionKey :=
  attempt .connect fun f => do
    check (f.registration? root).isSome .notFound
    check (!f.isConnected root) .alreadyConnected
    let key : ConnectionKey := ⟨f.lastConnection + 1⟩
    return (key, { f with
      lastConnection := key.value
      connections := f.connections.insert key ⟨root, handler⟩ })

def disconnect (key : ConnectionKey) : Call Facility Unit :=
  attempt .disconnect fun f => do
    check (f.connections.contains key) .notFound
    let close (t : Transfer) : Transfer :=
      if t.connection = key ∧ t.isPending then t.fail .providerNotRunning else t
    return ((), { f with
      connections := f.connections.erase key
      transfers := f.transfers.mapValues fun _ t => close t })

/-- Whether placeholders can be created in `parent`: it is the root it lies under, or a directory. -/
def holdsChildren (f : Facility) (root : RegisteredRoot) (parent : Path) : Bool :=
  root.path.same parent || (f.placeholder? parent).any Placeholder.isDirectory

def create (parent : Path) (new : NewPlaceholder) : Call Facility Unit :=
  attempt .create fun f => do
    let some root := f.coveringRoot? parent | .error .notACloudFile
    check (f.holdsChildren root parent) .pathNotFound
    check new.identity.fits .invalidArgument
    let path := parent.join new.name
    check (f.placeholder? path).isNone .alreadyExists
    return ((), { f with placeholders := f.placeholders.insert path.route (.create path new) })

/-- The state with the placeholder at `path` replaced by what `change` makes of it. -/
def changePlaceholder (path : Path) (change : Placeholder → Except Status Placeholder) (f : Facility) :
    Except Status (Unit × Facility) := do
  let some p := f.placeholder? path | .error .fileNotFound
  let changed ← change p
  return ((), { f with placeholders := f.placeholders.insert path.route changed })

def update (path : Path) (metadata : Metadata) (identity : FileIdentity) : Call Facility Unit :=
  attempt .update (changePlaceholder path fun p => .ok (p.update metadata identity))

def dehydrate (path : Path) : Call Facility Unit :=
  attempt .dehydrate (changePlaceholder path fun p => do
    check (!p.isDirectory) .isDirectory
    check (!p.inUse) .inUse
    return { p with content := none })

/-- Puts a segment into a transfer: it has to lie within the transfer and agree with its own length. -/
def receiveSegment (t : Transfer) (op : TransferOperation) : Except Status Transfer := do
  let some data := op.buffer | .error .invalidArgument
  check (0 ≤ op.offset && op.length = data.length) .invalidArgument
  check (op.offset.toNat + data.length ≤ t.length) .invalidArgument
  return t.receive op.offset.toNat data

/-- The placeholders once the whole of a transfer has come: its path holds the content, if it still exists. -/
def commit (placeholders : Table Route Placeholder) (t : Transfer) : Table Route Placeholder :=
  placeholders.modify t.path.route fun p => { p with content := some t.buffer }

def acceptOperation (op : TransferOperation) (f : Facility) : Except Status (Unit × Facility) := do
  check (f.connections.contains op.connection) .providerNotRunning
  let some t := (f.transfers.get? op.transfer).filter fun t => t.connection = op.connection ∧ t.isPending
    | .error .invalidRequest
  if !op.status.isSuccess then
    return ((), { f with transfers := f.transfers.insert op.transfer (t.fail op.status) })
  let t ← receiveSegment t op
  if t.isComplete then
    return ((), { f with
      transfers := f.transfers.insert op.transfer t.complete
      placeholders := commit f.placeholders t })
  return ((), { f with transfers := f.transfers.insert op.transfer t })

/-- Every operation is logged, refused or not. -/
def execute (op : TransferOperation) : Call Facility Unit := fun f =>
  let (outcome, g) := attempt .transfer (acceptOperation op) f
  let record : LoggedOperation :=
    ⟨op.connection, op.transfer, op.status, op.offset, op.length, outcome.isOk⟩
  (outcome, { g with log := g.log ++ [record] })

instance : CloudFacility Facility where
  registerRoot := register
  unregisterRoot := unregister
  connectRoot := connect
  disconnectRoot := disconnect
  createPlaceholder := create
  updatePlaceholder := update
  dehydratePlaceholder := dehydrate
  executeTransfer := execute

/-! ## What applications do to files -/

def markInUse (path : Path) (inUse : Bool) (f : Facility) : Facility :=
  { f with placeholders := f.placeholders.modify path.route fun p => { p with inUse } }

/-- Stores content as if the file had been hydrated. -/
def putContent (path : Path) (data : Bytes) (f : Facility) : Except Status Facility :=
  (·.2) <$> changePlaceholder path (fun p => do
    check (!p.isDirectory) .isDirectory
    return { p with content := some data }) f

/-- The next transfer key, open for `length` bytes of `path`. -/
def issueTransfer (connection : ConnectionKey) (path : Path) (length : Nat) (f : Facility) : TransferKey × Facility :=
  let key : TransferKey := ⟨f.lastTransfer + 1⟩
  (key, { f with
    lastTransfer := key.value
    transfers := f.transfers.insert key (.start connection path length) })

structure BegunTransfer where
  connection : ConnectionKey
  transfer : TransferKey
  length : Nat
deriving DecidableEq, Repr

/-- Opens a transfer of a whole file without telling the connection. -/
def beginTransfer (path : Path) (f : Facility) : Except Status (BegunTransfer × Facility) := do
  let some p := f.placeholder? path | .error .fileNotFound
  check (!p.isDirectory) .isDirectory
  let some (connection, _) := f.coveringConnection? path | .error .providerNotRunning
  let length := p.metadata.byteSize
  let (transfer, f) := f.issueTransfer connection path length
  return (⟨connection, transfer, length⟩, f)

end OnDemand.Facility
