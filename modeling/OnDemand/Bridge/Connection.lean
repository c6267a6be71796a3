import OnDemand.Bridge.Basic
import OnDemand.Text.Quoted

/-!
# Connections of the bridge

Connecting takes two steps: the facility accepts the connection, and the live table records its key. Callbacks
may arrive in between. Closing never fails: the key is retired first, and a refusal of the facility is passed
over.
-/

namespace OnDemand

/-- An open connection to a registered root. -/
structure OpenConnection where
  key : ConnectionKey
  root : Path
deriving DecidableEq, Repr

/-- The connection with all its fields, for logs. -/
def OpenConnection.describe (c : OpenConnection) : String :=
  s!"SyncRootConnection \x7b key: ConnectionKey({c.key.value}), root: {Text.quote c.root.text}, "
    ++ "open: true \x7d"

namespace Bridge

variable {σ : Type} [CloudFacility σ]

def accept (root : Path) (handler : Handler) : Act σ ConnectionError ConnectionKey :=
  ask (CloudFacility.connectRoot root handler) (.classify root)

def record (key : ConnectionKey) (root : Path) (b : Bridge σ) : Bridge σ :=
  { b with live := b.live.record key root }

def connect (root : Path) (handler : Handler) : Act σ ConnectionError OpenConnection := fun b =>
  match accept root handler b with
  | (.error e, b) => (.error e, b)
  | (.ok key, b) => (.ok ⟨key, root⟩, b.record key root)

def disconnect (c : OpenConnection) (b : Bridge σ) : Bridge σ :=
  let b := { b with live := b.live.retire c.key }
  (ask (CloudFacility.disconnectRoot c.key) id b).2

end Bridge

end OnDemand
