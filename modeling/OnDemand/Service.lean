import OnDemand.Bridge.Connection
import OnDemand.Bridge.Registration
import OnDemand.Config.Basic
import OnDemand.Store.Catalog
import OnDemand.Reconcile

/-!
# Serving a root

The root is made, registered and connected, and populated from the remote index; while requests
are answered, the index is loaded again from time to time; at the end the root is disconnected, and unregistered if so
configured.
-/

namespace OnDemand

inductive ServiceError where
  | creatingRoot (root : Path)
  | registering (cause : RegistrationError)
  | connecting (cause : ConnectionError)
deriving DecidableEq, Repr

def ServiceError.message : ServiceError → String
  | creatingRoot root => s!"creating sync root {root}"
  | registering cause => cause.message
  | connecting cause => cause.message

/-- A root that is being served: the open connection, the catalog applied last, and the channel and pool that answer its
requests. -/
structure Service (σ : Type) where
  config : Config
  connection : OpenConnection
  catalog : Catalog
  hydration : Hydration σ

namespace Service

variable {σ : Type} [CloudFacility σ]

/-- Makes the directory of a root. -/
def makeRoot (root : Path) (files : FileTree) : Except ServiceError Unit × FileTree :=
  let (outcome, files) := files.makeDirectories root
  (outcome.mapError fun _ => .creatingRoot root, files)

/-- Registers and connects the configured root; callbacks go to `handler`. -/
def join (c : SyncRootSection) (files : FileTree) (handler : Handler) :
    Bridge.Act σ ServiceError OpenConnection := fun b =>
  match Bridge.register files c.path c.displayName c.providerVersion b with
  | (.error e, b) => (.error (.registering e), b)
  | (.ok (), b) =>
    match Bridge.connect c.path handler b with
    | (.error e, b) => (.error (.connecting e), b)
    | (.ok connection, b) => (.ok connection, b)

/-- Loads the catalog for the first time, empty if it cannot be loaded, and creates its placeholders. -/
def populate (store : ObjectStore) (remotePrefix : String) (root : Path) (b : Bridge σ) : Catalog × Bridge σ :=
  let catalog := match store.catalogAt remotePrefix with
    | .ok catalog => catalog
    | .error _ => .empty
  (catalog, (Reconcile.run root (Catalog.empty.diff catalog) b).2)

/-- Loads the catalog again and applies what has changed; a catalog that cannot be loaded changes nothing. -/
def reload (store : ObjectStore) (remotePrefix : String) (root : Path) (current : Catalog) (b : Bridge σ) :
    Catalog × Bridge σ :=
  match store.catalogAt remotePrefix with
  | .error _ => (current, b)
  | .ok newer =>
    let diff := current.diff newer
    if diff.isEmpty then (newer, b) else (newer, (Reconcile.run root diff b).2)

/-- Populates a root that has been joined; the channel is empty and the pool idle. -/
def start (config : Config) (processors : Nat) (store : ObjectStore) (connection : OpenConnection) (b : Bridge σ) :
    Service σ :=
  let (catalog, b) := populate store config.storage.remotePrefix connection.root b
  ⟨config, connection, catalog, b, .create config.hydration.queueCapacity, .create (config.pool processors)⟩

def refresh (store : ObjectStore) (v : Service σ) : Service σ :=
  let (catalog, bridge) :=
    reload store v.config.storage.remotePrefix v.connection.root v.catalog v.hydration.bridge
  { v with catalog, hydration := { v.hydration with bridge } }

/-- Tells the pool to return once the requests it has are answered. -/
def stop (v : Service σ) : Service σ :=
  { v with hydration.pool.stopping := true }

/-- Leaves the root once the pool has returned: it is disconnected, and unregistered if so configured; a refusal is passed
over. -/
def close (v : Service σ) : Counters × Bridge σ :=
  let b := v.hydration.bridge.disconnect v.connection
  (v.hydration.channel.counters,
    if v.config.syncRoot.unregisterOnExit then (Bridge.unregister v.connection.root b).2 else b)

end Service

end OnDemand
