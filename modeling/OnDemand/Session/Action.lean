import OnDemand.Catalog.Entry
import OnDemand.Service
import OnDemand.Facility.Reading
import OnDemand.Store.Connect

/-!
# Actions of a session

A session is a script of actions on one facility, one bridge, one object store and one tree of files, in virtual time.
Two of its steps let time pass while a worker pool or the daemon is at work, with actions at given times.
-/

namespace OnDemand

/-- A connection by the name the script gave it, or by its key. -/
inductive ConnectionRef where
  | named (name : String)
  | key (key : ConnectionKey)
deriving DecidableEq, Repr

/-- A fetch callback of the script's own making. -/
structure ScriptedFetch where
  connection : ConnectionRef
  transfer : TransferKey
  identity : Bytes
  offset : Int
  length : Int
  fileSize : Int
  path : Option String
deriving DecidableEq, Repr

inductive Action where
  | register (root : Path) (name version : String)
  | unregister (root : Path)
  | registration (root : Path)
  | channel (name : String) (capacity : Nat)
  | dropDispatcher (channel : String)
  | connect (name : String) (root : Path) (channel : String) (early : List ScriptedFetch)
  | disconnect (name : String)
  | live (connection : ConnectionRef)
  | isConnected (root : Path)
  | create (parent : Path) (name : String) (identity : FileIdentity) (size : Nat) (mtime : Int) (directory : Bool)
  | update (path : Path) (identity : FileIdentity) (size : Nat) (mtime : Int)
  | dehydrate (path : Path)
  | state (path : Path)
  | paths
  | planFault (operation : Operation) (status : Status)
  | markInUse (path : Path) (inUse : Bool)
  | fill (path : Path) (data : Bytes)
  | beginTransfer (path : Path)
  | pending
  | log
  | rawRegister (root : Path) (name version : String)
  | rawDisconnect (connection : ConnectionRef)
  | rawCreate (parent : Path) (new : NewPlaceholder)
  | rawUpdate (path : Path) (metadata : Metadata) (identity : FileIdentity)
  | rawExecute (connection : ConnectionRef) (transfer : TransferKey) (status : Status) (buffer : Option Bytes)
      (offset length : Int)
  | fetch (channel : String) (fetch : ScriptedFetch)
  | cancel (channel : String) (connection : ConnectionRef) (transfer : TransferKey) (identity : Bytes)
      (offset length : Int)
  | receive (channel : String)
  | receiveWaiting (channel : String)
  | closeFeed (channel : String)
  | dropFeed (channel : String)
  | counters (channel : String)
  | deliver (connection : ConnectionRef) (transfer : TransferKey) (completion : Completion)
  | read (path : Path) (offset length : Nat)
  | startRead (name : String) (path : Path) (offset length : Nat)
  | joinRead (name : String)
  | storeWrite (key : String) (body : Bytes)
  | storeDelete (key : String)
  | catalogAt (remotePrefix : String)
  | objectRange (object : String) (offset length : Nat)
  | contentRange (identity : FileIdentity) (offset length : Nat)
  | health (remotePrefix : String)
  | chooseBackend (backend : String) (root : Path) (remotePrefix : String)
  | sync (root : Path) (entries : List Entry) (blocking : Bool)
  | syncChanged (root : Path) (entries : List Entry)
  | makeDirectory (path : Path)
  | makeFile (path : Path) (content : Bytes)
  | makeLink (path : Path) (target : String)
  | removeTree (path : Path)
  | sleep (milliseconds : Nat)
  | now

/-- What a scripted content source returns for one identity. -/
inductive Reply where
  | failed
  /-- The same bytes for every range. -/
  | fixed (bytes : Bytes)
  /-- The wanted window of these bytes. -/
  | object (bytes : Bytes)
deriving DecidableEq, Repr

structure SourceRule where
  identity : FileIdentity
  delay : Nat
  reply : Reply
deriving DecidableEq, Repr

/-- Where a pool gets its content: from rules, the first that names the identity, or from the object store. -/
inductive Source where
  | rules (rules : List SourceRule)
  | store
deriving DecidableEq, Repr

/-- An action at so many milliseconds after its step began. -/
structure Event where
  time : Nat
  action : Action

inductive Step where
  | act (action : Action)
  /-- Runs a pool on the feed of a channel; `stopBefore` calls the shutdown before it begins. -/
  | workers (channel : String) (pool : PoolConfig) (source : Source) (stopBefore : Bool) (stopAt : Option Nat)
      (events : List Event)
  /-- Runs the daemon on `root`, configured by a text. -/
  | serve (config : String) (root : Path) (stopAt : Nat) (events : List Event)

end OnDemand
