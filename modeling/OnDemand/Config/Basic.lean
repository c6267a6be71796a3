import OnDemand.Hydration.Pool
import OnDemand.Path
import OnDemand.Text.Blank
import OnDemand.Text.Quoted

/-!
# Configuration

The settings of the daemon, section by section, with their defaults, and the values that it refuses to start with.
-/

namespace OnDemand

structure DaemonSection where
  logLevel : String
  logFormat : String
deriving DecidableEq, Repr, Inhabited

structure SyncRootSection where
  path : Path
  displayName : String
  providerVersion : String
  unregisterOnExit : Bool
deriving DecidableEq, Repr, Inhabited

structure HydrationSection where
  /-- Concurrent fetches; zero for as many as there are processors. -/
  workers : Nat
  queueCapacity : Nat
  chunkSize : Nat
  fetchTimeoutSecs : Nat
deriving DecidableEq, Repr, Inhabited

structure StorageSection where
  backend : String
  endpoint : String
  region : String
  bucket : String
  /-- The root directory of the `fs` backend. -/
  root : Path
  remotePrefix : String
  enforceTls : Bool
deriving DecidableEq, Repr, Inhabited

structure CatalogSection where
  /-- Seconds between refreshes; zero for none. -/
  refreshSecs : Nat
deriving DecidableEq, Repr, Inhabited

structure Config where
  daemon : DaemonSection
  syncRoot : SyncRootSection
  hydration : HydrationSection
  storage : StorageSection
  catalog : CatalogSection
deriving DecidableEq, Repr, Inhabited

def packageVersion : String := "0.1.0"

def DaemonSection.default : DaemonSection := ⟨"info", "text"⟩

def SyncRootSection.default : SyncRootSection := ⟨⟨"C:\\Stratus"⟩, "Stratus", packageVersion, false⟩

def HydrationSection.default : HydrationSection := ⟨0, 256, 1024 * 1024, 60⟩

def StorageSection.default : StorageSection :=
  ⟨"s3", "http://localhost:8333", "us-east-1", "stratus", ⟨"stratus-data"⟩, "default", false⟩

def CatalogSection.default : CatalogSection := ⟨30⟩

inductive ConfigError where
  | unalignedChunkSize (got : Nat)
  | emptyQueue
  | missingDisplayName
  | unknownBackend (backend : String)
deriving DecidableEq, Repr

def ConfigError.message : ConfigError → String
  | unalignedChunkSize got =>
    s!"hydration.chunk_size must be a non-zero multiple of {segmentAlignment}, got {got}"
  | emptyQueue => "hydration.queue_capacity must be at least 1"
  | missingDisplayName => "sync_root.display_name must not be empty"
  | unknownBackend backend =>
    "storage.backend must be \"s3\" or \"fs\", got " ++ Text.quote backend

namespace Config

def default : Config := ⟨.default, .default, .default, .default, .default⟩

def validate (c : Config) : Except ConfigError Unit :=
  let chunk := c.hydration.chunkSize
  if chunk = 0 ∨ chunk % segmentAlignment ≠ 0 then .error (.unalignedChunkSize chunk)
  else if c.hydration.queueCapacity = 0 then .error .emptyQueue
  else if Text.trim c.syncRoot.displayName = "" then .error .missingDisplayName
  else if c.storage.backend = "s3" ∨ c.storage.backend = "fs" then .ok ()
  else .error (.unknownBackend c.storage.backend)

/-- The number of workers, with `processors` standing in for zero. -/
def effectiveWorkers (processors : Nat) (c : Config) : Nat :=
  if c.hydration.workers = 0 then processors else c.hydration.workers

def pool (processors : Nat) (c : Config) : PoolConfig :=
  ⟨c.effectiveWorkers processors, c.hydration.chunkSize, c.hydration.fetchTimeoutSecs * 1000⟩

end Config

end OnDemand
