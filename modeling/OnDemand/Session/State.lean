import OnDemand.Session.Answer
import OnDemand.Store.Reading
import OnDemand.Store.Files
import OnDemand.Store.Memory

/-!
# The state of a session

Besides the facility and the store: the channels, connections and reads that the script has named, the pools at work with
what their jobs wait for, and the tasks to be run next.
-/

namespace OnDemand

/-- A channel with the handles on it that the script still holds. -/
structure ChannelState where
  channel : Channel
  dispatcher : Bool
  feed : Bool

/-- A connection that the script has named; its key is remembered when it has been closed. -/
structure NamedConnection where
  connection : OpenConnection
  isOpen : Bool

inductive ReadState where
  | waiting (reader : Reader)
  | returned (result : Except ReadError Bytes)
  | joined

/-- What a job waits for. -/
inductive JobState where
  | fresh
  /-- The source answers at `due`; the fetch times out at `deadline`. -/
  | fetching (due deadline : Nat) (fetched : Fetched)

/-- A pool at work. -/
structure Crew where
  channel : Nat
  pool : Pool
  source : Source
  jobs : Table Nat JobState
  endedAt : Option Nat

/-- The refreshes of the catalog that are still to come. -/
structure Refreshing where
  every : Nat
  next : Nat
  stopping : Bool
  ended : Bool

/-- A daemon whose root is connected; its channel and its pool are among those of the session. -/
structure Serving where
  config : Config
  connection : OpenConnection
  catalog : Catalog
  channel : Nat
  crew : Nat
  refreshing : Option Refreshing

inductive DaemonState where
  | starting (config : Config)
  | serving (state : Serving)
  | ended (time : Nat) (result : Except ServiceError Counters)

inductive Task where
  | crew (crew : Nat)
  | job (crew job : Nat)
  | daemon
  | refresh
deriving DecidableEq, Repr

inductive Backend where
  | memory (objects : Store.Memory)
  | files (files : Store.Files)

structure Session where
  /-- Milliseconds since the session began. -/
  now : Nat
  /-- The tasks that can go on, in the order in which they became able to. -/
  ready : List Task
  files : FileTree
  backend : Backend
  bridge : Bridge (Recorded Facility)
  /-- The catalog that the next diff starts from. -/
  snapshot : Catalog
  channels : Table Nat ChannelState
  channelNames : Table String Nat
  connections : Table String NamedConnection
  reads : Table String ReadState
  crews : Table Nat Crew
  daemon : Option DaemonState
  /-- When the daemon is told to stop. -/
  daemonStop : Nat

namespace Session

def start (files : FileTree) (backend : Backend) : Session where
  now := 0
  ready := []
  files
  backend
  bridge := .ofFacility ⟨.empty, []⟩
  snapshot := .empty
  channels := ∅
  channelNames := ∅
  connections := ∅
  reads := ∅
  crews := ∅
  daemon := none
  daemonStop := 0

def facility (s : Session) : Facility := s.bridge.facility.facility

/-- Changes the facility behind the bridge's back. -/
def changeFacility (f : Facility → Facility) (s : Session) : Session :=
  { s with bridge := { s.bridge with facility := { s.bridge.facility with facility := f s.facility } } }

/-- Runs an operation of the bridge. -/
def act {ε α : Type} (operation : Bridge.Act (Recorded Facility) ε α) (s : Session) : Except ε α × Session :=
  let (answer, bridge) := operation s.bridge
  (answer, { s with bridge })

def store (s : Session) : ObjectStore :=
  match s.backend with
  | .memory objects => objects.store
  | .files root => root.store s.files

/-- The calls noted so far, which are then forgotten. -/
def takeCalls (s : Session) : List Call.Note × Session :=
  (s.bridge.facility.notes, { s with bridge := { s.bridge with facility := { s.bridge.facility with notes := [] } } })

/-- The key that the script means; a name it never gave means a key that no connection has. -/
def keyOf (ref : ConnectionRef) (s : Session) : ConnectionKey :=
  match ref with
  | .key key => key
  | .named name => ((s.connections.get? name).map (·.connection.key)).getD ⟨-1⟩

/-! ## Channels -/

def channelNumber? (name : String) (s : Session) : Option Nat := s.channelNames.get? name

/-- The number and state of a channel whose dispatcher the script still holds. -/
def dispatcher? (name : String) (s : Session) : Option Nat := do
  let n ← s.channelNumber? name
  let c ← s.channels.get? n
  if c.dispatcher then some n else none

/-- The number and state of a channel whose feed the script still holds. -/
def feed? (name : String) (s : Session) : Option (Nat × Channel) := do
  let n ← s.channelNumber? name
  let c ← s.channels.get? n
  if c.feed then some (n, c.channel) else none

def setChannel (n : Nat) (channel : Channel) (s : Session) : Session :=
  { s with channels := s.channels.modify n fun c => { c with channel } }

def addChannel (capacity : Nat) (dispatcher feed : Bool) (s : Session) : Nat × Session :=
  let n := s.channels.size
  (n, { s with channels := s.channels.insert n ⟨.create capacity, dispatcher, feed⟩ })

/-! ## Tasks -/

def wake (t : Task) (s : Session) : Session :=
  if s.ready.contains t then s else { s with ready := s.ready ++ [t] }

def wakeAll (ts : List Task) (s : Session) : Session := ts.foldl (fun s t => s.wake t) s

/-- The pools waiting for a request of channel `n`. -/
def waitingFor (n : Nat) (s : Session) : List Task :=
  s.crews.toList.filterMap fun (number, crew) =>
    if crew.channel = n ∧ crew.pool.stage = .receiving then some (.crew number) else none

/-! ## Callbacks -/

/-- Hands a fetch callback to a handler. -/
def raiseFetch (handler : Handler) (info : FetchInfo) (s : Session) : Session :=
  match handler.bind fun n => (s.channels.get? n).map (n, ·) with
  | none => s
  | some (n, c) =>
    let (channel, bridge) := c.channel.fetch info s.bridge
    ({ s with bridge }.setChannel n channel).wakeAll (s.waitingFor n)

def raiseCancel (handler : Handler) (info : CancelInfo) (s : Session) : Session :=
  match handler.bind fun n => (s.channels.get? n).map (n, ·) with
  | none => s
  | some (n, c) => s.setChannel n (c.channel.cancel info)

/-- Closes every channel on which no callback can come any more. -/
def hangUp (s : Session) : Session :=
  let heard := s.facility.connections.values.filterMap (·.handler)
  let silent := s.channels.toList.filterMap fun (n, c) =>
    if c.channel.isOpen ∧ !c.dispatcher ∧ !heard.contains n then some (n, c.channel.close) else none
  silent.foldl (fun s (n, channel) => (s.setChannel n channel).wakeAll (s.waitingFor n)) s

/-- Lets every waiting read return whose transfer has ended. -/
def settleReads (s : Session) : Session :=
  { s with reads := s.reads.mapValues fun _ r =>
      match r with
      | .waiting reader =>
        match s.facility.readResult? reader with
        | some result => .returned result
        | none => r
      | r => r }

end Session

end OnDemand
