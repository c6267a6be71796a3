import OnDemand.Config.Basic
import OnDemand.Toml.Document

/-!
# Reading a configuration

A configuration is a TOML document with one table for each section. What is missing has its default, unknown keys do not
count, and a value of the wrong type spoils the whole configuration. A section may also be an array of its values in order.
-/

namespace OnDemand.Config

open Toml

/-- The value of each field of a section, if there is one. -/
def fieldValues? (names : List String) : Value → Option (List (Option Value))
  | .table _ items => some (names.map (Items.get? items))
  | .array values => some ((List.range names.length).map (values[·]?))
  | .tables elements => some ((List.range names.length).map fun i => (elements[i]?).map (.table .defined))
  | .datetime => some (names.map fun _ => none)
  | _ => none

/-- Reads a field with `read`; its default if it is missing. -/
def readField {α : Type} (read : Value → Option α) (default : α) : Option Value → Option α
  | none => some default
  | some v => read v

def text? : Value → Option String
  | .string s => some s
  | _ => none

def path? (v : Value) : Option Path := (text? v).map Path.mk

def flag? : Value → Option Bool
  | .boolean b => some b
  | _ => none

def count? : Value → Option Nat
  | .integer n => if 0 ≤ n then some n.toNat else none
  | _ => none

def daemon? (v : Value) : Option DaemonSection := do
  let d := DaemonSection.default
  match ← fieldValues? ["log_level", "log_format"] v with
  | [level, format] => return ⟨← readField text? d.logLevel level, ← readField text? d.logFormat format⟩
  | _ => none

def syncRoot? (v : Value) : Option SyncRootSection := do
  let d := SyncRootSection.default
  match ← fieldValues? ["path", "display_name", "provider_version", "unregister_on_exit"] v with
  | [path, name, version, unregister] =>
    return ⟨← readField path? d.path path, ← readField text? d.displayName name,
      ← readField text? d.providerVersion version, ← readField flag? d.unregisterOnExit unregister⟩
  | _ => none

def hydration? (v : Value) : Option HydrationSection := do
  let d := HydrationSection.default
  match ← fieldValues? ["workers", "queue_capacity", "chunk_size", "fetch_timeout_secs"] v with
  | [workers, capacity, chunk, timeout] =>
    return ⟨← readField count? d.workers workers, ← readField count? d.queueCapacity capacity,
      ← readField count? d.chunkSize chunk, ← readField count? d.fetchTimeoutSecs timeout⟩
  | _ => none

def storage? (v : Value) : Option StorageSection := do
  let d := StorageSection.default
  match ← fieldValues? ["backend", "endpoint", "region", "bucket", "root", "remote_prefix", "enforce_tls"] v with
  | [backend, endpoint, region, bucket, root, remote, tls] =>
    return ⟨← readField text? d.backend backend, ← readField text? d.endpoint endpoint, ← readField text? d.region region,
      ← readField text? d.bucket bucket, ← readField path? d.root root, ← readField text? d.remotePrefix remote,
      ← readField flag? d.enforceTls tls⟩
  | _ => none

def catalog? (v : Value) : Option CatalogSection := do
  match ← fieldValues? ["refresh_secs"] v with
  | [refresh] => return ⟨← readField count? CatalogSection.default.refreshSecs refresh⟩
  | _ => none

def ofItems? (items : Items) : Option Config := do
  return ⟨← readField daemon? .default (items.get? "daemon"), ← readField syncRoot? .default (items.get? "sync_root"),
    ← readField hydration? .default (items.get? "hydration"), ← readField storage? .default (items.get? "storage"),
    ← readField catalog? .default (items.get? "catalog")⟩

def parse? (text : String) : Option Config := (Toml.parse? text).bind ofItems?

end OnDemand.Config
