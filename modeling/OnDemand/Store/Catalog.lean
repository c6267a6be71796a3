import OnDemand.Catalog.Basic
import OnDemand.Catalog.Index
import OnDemand.Store.Basic
import OnDemand.Text.Utf8

/-!
# Loading the catalog

The catalog is made of the index entries below the remote prefix. Directory markers, objects that cannot be read
and texts that describe nothing are passed over.
-/

namespace OnDemand.ObjectStore

/-- The path of an index entry: its key without the directory of the index, if it starts with it. -/
def relativePath (directory key : String) : String :=
  String.ofList ((Text.after? directory.toList key.toList).getD key.toList)

/-- What the index object at `key` describes. -/
def indexEntry? (s : ObjectStore) (directory key : String) : Option Entry :=
  let path := relativePath directory key
  if path = "" ∨ path.toList.getLast? = some '/' then none
  else match s.read key with
    | .error _ => none
    | .ok body => Index.parse? path (Text.Utf8.decode body)

def catalogAt (s : ObjectStore) (remotePrefix : String) : Except StoreError Catalog := do
  let directory := Index.directory remotePrefix
  let keys ← s.list directory
  return .ofList (keys.filterMap (s.indexEntry? directory))

/-- Whether the store answers; an index that does not exist yet is healthy. -/
def isHealthy (s : ObjectStore) (remotePrefix : String) : Bool :=
  match s.probe (Index.directory remotePrefix) with
  | .ok _ | .error .missing => true
  | .error .unavailable => false

end OnDemand.ObjectStore
