import OnDemand.Config.Reading
import OnDemand.Session.Tasks

/-!
# Running a session

Every action is complete, with the callbacks it raises and the reads it lets return, before the next one begins.
-/

namespace OnDemand.Session

def answer {ε α : Type} (onError : ε → Outcome) (result : Except ε α) : Outcome :=
  match result with
  | .ok _ => .done
  | .error e => onError e

/-- Makes a call on the facility through the record, without the bridge. -/
def rawCall {α : Type} (call : Call (Recorded Facility) α) (s : Session) : Outcome × Session :=
  let (result, s) := s.act (Bridge.ask call id)
  (answer .platform result, s)

def scriptedFetch (f : ScriptedFetch) (s : Session) : FetchInfo :=
  ⟨s.keyOf f.connection, f.transfer, f.identity, f.offset, f.length, f.fileSize, f.path⟩

/-! ## Channels -/

/-- Lets go of what the script holds of a channel. -/
def forgetChannel (name : String) (s : Session) : Session :=
  match s.channelNumber? name with
  | none => s
  | some n =>
    match s.channels.get? n with
    | none => s
    | some c =>
      let channel := if c.feed then c.channel.discard else c.channel
      { s with channels := s.channels.insert n ⟨channel, false, false⟩ }

def openChannel (name : String) (capacity : Nat) (s : Session) : Session :=
  let s := s.forgetChannel name
  let (n, s) := s.addChannel capacity true true
  { s with channelNames := s.channelNames.insert name n }

def modifyChannelState (name : String) (f : ChannelState → ChannelState) (s : Session) : Session :=
  match s.channelNumber? name with
  | none => s
  | some n => { s with channels := s.channels.modify n f }

def dropDispatcher (name : String) (s : Session) : Outcome × Session :=
  (.flag (s.dispatcher? name).isSome, s.modifyChannelState name fun c => { c with dispatcher := false })

def dropFeed (name : String) (s : Session) : Outcome × Session :=
  match s.feed? name with
  | none => (.flag false, s)
  | some _ => (.flag true, s.modifyChannelState name fun c => { c with channel := c.channel.discard, feed := false })

/-- Runs `f` on the channel whose feed the script holds. -/
def onFeed (name : String) (f : Nat → Channel → Session → Outcome × Session) (s : Session) : Outcome × Session :=
  match s.feed? name with
  | none => (.unknown .feed, s)
  | some (n, channel) => f n channel s

def receive (n : Nat) (channel : Channel) (s : Session) : Outcome × Session :=
  match channel.take? with
  | none => (.request none, s)
  | some (r, channel) => (.request (some r), s.setChannel n channel)

/-- How long a script waits for a request, in milliseconds. -/
def patience : Nat := 1000

def receiveWaiting (n : Nat) (channel : Channel) (s : Session) : Outcome × Session :=
  match channel.take? with
  | some (r, channel) => (.request (some r), s.setChannel n channel)
  | none => if channel.isOpen then (.nothing, s.waitUntil (s.now + patience)) else (.request none, s)

/-! ## Connections -/

/-- Disconnects a connection that the script has named, if it is still open. -/
def disconnectNamed (name : String) (s : Session) : Outcome × Session :=
  match s.connections.get? name with
  | none => (.unknown .connection, s)
  | some c =>
    if c.isOpen then
      (.done, { s with
        bridge := s.bridge.disconnect c.connection
        connections := s.connections.insert name { c with isOpen := false } })
    else (.unknown .connection, s)

/-- Connects `root`; the early fetches are raised after the facility has accepted the connection and before the bridge
knows its key. -/
def connect (name : String) (root : Path) (channel : String) (early : List ScriptedFetch) (s : Session) :
    Outcome × Session :=
  let handler := s.dispatcher? channel
  match s.act (Bridge.accept root handler) with
  | (.error e, s) => (.connectionError e, s)
  | (.ok key, s) =>
    let s := early.foldl (fun s f => s.raiseFetch handler { s.scriptedFetch f with connection := key }) s
    let s := { s with bridge := s.bridge.record key root }
    let s := (s.disconnectNamed name).2
    let connection : OpenConnection := ⟨key, root⟩
    (.connected connection, { s with connections := s.connections.insert name ⟨connection, true⟩ })

def liveView (ref : ConnectionRef) (s : Session) : LiveView :=
  let key := s.keyOf ref
  let live := s.bridge.live
  ⟨live.contains key, live.isClosed key, live.size, live.root? key⟩

/-! ## Reads -/

/-- A read without patience: it gives up at once if it has to wait. A fetch that it has raised still arrives. -/
def readAtOnce (path : Path) (offset length : Nat) (s : Session) : Outcome × Session :=
  let (start, facility) := s.facility.startRead path offset length
  let s := s.changeFacility fun _ => facility
  let giveUp (reader : Reader) (s : Session) : Session :=
    let (raised, facility) := s.facility.giveUp reader
    let s := s.changeFacility fun _ => facility
    match raised with
    | some cancel => s.raiseCancel cancel.handler cancel.info
    | none => s
  match start with
  | .returned result => (.read result, s)
  | .joined reader => (.read (.error (.timedOut path)), giveUp reader s)
  | .opened reader fetch => (.read (.error (.timedOut path)), (giveUp reader s).raiseFetch fetch.handler fetch.info)

def startRead (name : String) (path : Path) (offset length : Nat) (s : Session) : Outcome × Session :=
  let (start, facility) := s.facility.startRead path offset length
  let s := s.changeFacility fun _ => facility
  let note (state : ReadState) (s : Session) : Session := { s with reads := s.reads.insert name state }
  let s := match start with
    | .returned result => note (.returned result) s
    | .joined reader => note (.waiting reader) s
    | .opened reader fetch => (note (.waiting reader) s).raiseFetch fetch.handler fetch.info
  let s := s.settleReads
  match s.reads.get? name with
  | some (.waiting _) => (.readWaiting, s)
  | _ => (.readReturned, s)

def joinRead (name : String) (s : Session) : Outcome × Session :=
  match s.reads.get? name with
  | none => (.unknown .read, s)
  | some (.waiting _) => (.readWaiting, s)
  | some .joined => (.readJoined, s)
  | some (.returned result) => (.read result, { s with reads := s.reads.insert name .joined })

/-! ## Store and catalog -/

/-- Lets the other tasks run first where the store is kept in files. -/
def askStore (s : Session) : Session :=
  match s.backend with
  | .memory _ => s
  | .files _ => s.runReady

def catalogAt (remotePrefix : String) (s : Session) : Outcome :=
  match s.store.catalogAt remotePrefix with
  | .ok catalog => .entries catalog.toList
  | .error _ => .failure s!"listing remote index {Index.directory remotePrefix}"

def health (remotePrefix : String) (s : Session) : Outcome :=
  if s.store.isHealthy remotePrefix then .done
  else .failure s!"storage health check failed listing {Index.directory remotePrefix}"

def bytes (result : Except RangeError Bytes) : Outcome :=
  match result with
  | .ok bytes => .bytes bytes
  | .error e => .failure e.message

def chooseBackend (backend : String) (root : Path) (remotePrefix : String) (s : Session) : Outcome × Session :=
  let settings : StorageSection := { StorageSection.default with backend, root, remotePrefix }
  match settings.connect (fun _ => none) s.files with
  | (.ok kind, files) => (.backend kind, { s with files })
  | (.error e, files) => (.failure e.message, { s with files })

def writeObject (key : String) (body : Bytes) (s : Session) : Session :=
  match s.backend with
  | .memory objects => { s with backend := .memory (objects.write key body) }
  | .files root => { s with files := root.write s.files key body }

def deleteObject (key : String) (s : Session) : Session :=
  match s.backend with
  | .memory objects => { s with backend := .memory (objects.delete key) }
  | .files root => { s with files := root.delete s.files key }

def reconcile (root : Path) (d : Catalog.Diff) (s : Session) : Outcome × Session :=
  let (report, bridge) := Reconcile.run root d s.bridge
  (.report report, { s with bridge })

/-- Brings `root` from the kept snapshot to the catalog of `entries`, which is kept instead. -/
def sync (root : Path) (entries : List Entry) (blocking : Bool) (s : Session) : Outcome × Session :=
  let newer := Catalog.ofList entries
  let (outcome, s) := s.reconcile root (s.snapshot.diff newer)
  let s := { s with snapshot := newer }
  (outcome, if blocking then s.runReady else s)

/-! ## Files -/

def changeFiles (f : FileTree → Except FileError FileTree) (s : Session) : Outcome × Session :=
  match f s.files with
  | .ok files => (.flag true, { s with files })
  | .error _ => (.flag false, s)

/-- Changes the files by something that may fail halfway. -/
def runFiles (f : FileTree → Except FileError Unit × FileTree) (s : Session) : Outcome × Session :=
  let (result, files) := f s.files
  (.flag result.isOk, { s with files })

/-- The longest that a script sleeps at a time: thirty years, in milliseconds. -/
def farFuture : Nat := 946080000000

/-! ## Actions -/

def perform (a : Action) (s : Session) : Outcome × Session :=
  match a with
  | .register root name version =>
    let (result, s) := s.act (Bridge.register s.files root name version)
    (answer .registrationError result, s)
  | .unregister root =>
    let (result, s) := s.act (Bridge.unregister root)
    (answer .registrationError result, s)
  | .registration root => (.registration ((s.facility.registration? root).map (·.registration)), s)
  | .channel name capacity => (.done, s.openChannel name capacity)
  | .dropDispatcher name => s.dropDispatcher name
  | .connect name root channel early => s.connect name root channel early
  | .disconnect name => s.disconnectNamed name
  | .live ref => (.live (s.liveView ref), s)
  | .isConnected root => (.flag (s.facility.isConnected root), s)
  | .create parent name identity size mtime directory =>
    let (result, s) := s.act (Bridge.create parent name identity size mtime directory)
    (answer .placeholderError result, s)
  | .update path identity size mtime =>
    let (result, s) := s.act (Bridge.update path identity size mtime)
    (answer .placeholderError result, s)
  | .dehydrate path =>
    let (result, s) := s.act (Bridge.dehydrate path)
    (answer .placeholderError result, s)
  | .state path => (.placeholder ((s.facility.placeholder? path).map ({ · with path })), s)
  | .paths => (.paths s.facility.paths, s)
  | .planFault operation status => (.done, s.changeFacility (·.planFault operation status))
  | .markInUse path inUse => (.done, s.changeFacility (·.markInUse path inUse))
  | .fill path data =>
    match s.facility.putContent path data with
    | .ok facility => (.done, s.changeFacility fun _ => facility)
    | .error status => (.platform status, s)
  | .beginTransfer path =>
    match s.facility.beginTransfer path with
    | .ok (opened, facility) => (.opened opened, s.changeFacility fun _ => facility)
    | .error status => (.platform status, s)
  | .pending => (.count s.facility.pendingCount, s)
  | .log => (.log s.facility.log, s)
  | .rawRegister root name version => s.rawCall (CloudFacility.registerRoot root (.new name version))
  | .rawDisconnect ref => s.rawCall (CloudFacility.disconnectRoot (s.keyOf ref))
  | .rawCreate parent new => s.rawCall (CloudFacility.createPlaceholder parent new)
  | .rawUpdate path metadata identity => s.rawCall (CloudFacility.updatePlaceholder path metadata identity)
  | .rawExecute ref transfer status buffer offset length =>
    s.rawCall (CloudFacility.executeTransfer ⟨s.keyOf ref, transfer, status, buffer, offset, length⟩)
  | .fetch channel f =>
    match s.dispatcher? channel with
    | none => (.unknown .channel, s)
    | some n => (.done, s.raiseFetch (some n) (s.scriptedFetch f))
  | .cancel channel ref transfer identity offset length =>
    match s.dispatcher? channel with
    | none => (.unknown .channel, s)
    | some n => (.done, s.raiseCancel (some n) ⟨s.keyOf ref, transfer, identity, offset, length⟩)
  | .receive name => s.onFeed name receive
  | .receiveWaiting name => s.onFeed name receiveWaiting
  | .closeFeed name => s.onFeed name fun n channel s => (.done, s.setChannel n channel.close)
  | .dropFeed name => s.dropFeed name
  | .counters name =>
    match (s.channelNumber? name).bind s.channels.get? with
    | none => (.unknown .channel, s)
    | some c => (.counters c.channel.counters, s)
  | .deliver ref transfer completion =>
    let (result, s) := s.act (Bridge.deliver (s.keyOf ref) transfer completion)
    (answer .transferError result, s)
  | .read path offset length => s.readAtOnce path offset length
  | .startRead name path offset length => s.startRead name path offset length
  | .joinRead name => s.joinRead name
  | .storeWrite key body => (.done, s.askStore.writeObject key body)
  | .storeDelete key => (.done, s.askStore.deleteObject key)
  | .catalogAt remotePrefix => (s.catalogAt remotePrefix, s.askStore)
  | .objectRange object offset length => (bytes (s.store.objectRange object offset length), s.askStore)
  | .contentRange identity offset length => (bytes (s.store.contentRange identity offset length), s.askStore)
  | .health remotePrefix => (s.health remotePrefix, s.askStore)
  | .chooseBackend backend root remotePrefix => s.chooseBackend backend root remotePrefix
  | .sync root entries blocking => s.sync root entries blocking
  | .syncChanged root entries => s.reconcile root ⟨[], entries, []⟩
  | .makeDirectory path => s.runFiles (·.makeDirectories path)
  | .makeFile path content => s.changeFiles (·.writeFile path content)
  | .makeLink path target => s.changeFiles (·.makeLink path target)
  | .removeTree path => s.runFiles (·.removeTree path)
  | .sleep milliseconds => (.done, s.waitUntil (s.now + min milliseconds farFuture))
  | .now => (.count s.now, s)

/-- Performs an action with everything that follows from it at once. -/
def performWhole (a : Action) (s : Session) : Outcome × Session :=
  let (outcome, s) := s.perform a
  (outcome, s.settleReads.hangUp)

/-! ## Steps in which time passes -/

/-- Performs events at their times after `start`; one whose time has passed comes at once. -/
def performEvents (start : Nat) : List Event → Session → List Answered × Session
  | [], s => ([], s)
  | e :: rest, s =>
    let (outcome, s) := (s.waitUntil (start + e.time)).performWhole e.action
    let (calls, s) := s.takeCalls
    let (answers, s) := performEvents start rest s
    (⟨outcome, calls⟩ :: answers, s)

/-- How long a pool that nobody stops is waited for: one day, in milliseconds. -/
def oneDay : Nat := 86400000

/-- Gives up a pool that has not returned; its jobs go on, and it drops its feed when the tasks run again. -/
def abortCrew (n : Nat) (s : Session) : Session :=
  ({ s with crews := s.crews.modify n fun crew => { crew with pool := { crew.pool with stage := .finished } } }).wake
    (.crew n)

def runWorkers (channel : Nat) (config : PoolConfig) (source : Source) (stopBefore : Bool) (stopAt : Option Nat)
    (events : List Event) (s : Session) : Answer × Session :=
  let start := s.now
  let s := { s with channels := s.channels.modify channel fun c => { c with feed := false } }
  let (crew, s) := s.startCrew channel (.create config) source
  let s := if stopBefore then s.stopCrew crew else s
  let (answers, s) := performEvents start events s
  let s := match stopAt with
    | some time => (s.waitUntil (start + time)).stopCrew crew
    | none => s
  let deadline := s.now + oneDay
  let s := passUntil (·.crewEnded crew) deadline (s.rounds deadline) s
  let endedAt := ((s.crews.get? crew).bind (·.endedAt)).map (· - start)
  let s := if s.crewEnded crew then s else s.abortCrew crew
  (.workers answers endedAt, s)

def daemonEnded (s : Session) : Bool :=
  match s.daemon with
  | some (.ended _ _) => true
  | _ => false

/-- Runs the daemon until it is told to stop; it has started before the first event, and events may come after its end. -/
def runServe (config : Config) (stopAt : Nat) (events : List Event) (s : Session) : Answer × Session :=
  let start := s.now
  let s := (({ s with daemon := some (.starting config), daemonStop := start + stopAt }).wake .daemon).runReady
  let (answers, s) := performEvents start events s
  let deadline := max s.now (start + stopAt) + oneDay
  let s := passUntil daemonEnded deadline (s.rounds deadline) s
  match s.daemon with
  | some (.ended time result) => (.served answers (some (time - start)) result, { s with daemon := none })
  | _ => (.served answers none (.ok .zero), s)

def performStep (step : Step) (s : Session) : Answer × Session :=
  match step with
  | .act a =>
    let (outcome, s) := s.performWhole a
    (.act outcome, s)
  | .workers name config source stopBefore stopAt events =>
    match s.feed? name with
    | none => (.act (.unknown .feed), s)
    | some (channel, _) => s.runWorkers channel config source stopBefore stopAt events
  | .serve text root stopAt events =>
    match Config.parse? text with
    | none => (.badConfig, s)
    | some config =>
      runServe { config with syncRoot := { config.syncRoot with path := root } } stopAt events s

/-- Runs the steps of a session in order. -/
def runSteps (steps : List Step) (s : Session) : List (Answer × List Call.Note) × Session :=
  match steps with
  | [] => ([], s)
  | step :: rest =>
    let (answer, s) := s.performStep step
    let s := s.settleReads.hangUp
    let (calls, s) := s.takeCalls
    let (answers, s) := runSteps rest s
    ((answer, calls) :: answers, s)

def ending (s : Session) : Ending :=
  let f := s.facility
  { roots := f.registrations.values.map fun r => (r, f.isConnected r.path)
    placeholders := f.placeholders.values
    log := f.log
    pending := f.pendingCount
    live := s.bridge.live.size }

end OnDemand.Session
