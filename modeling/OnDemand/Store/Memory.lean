import OnDemand.Store.Basic
import OnDemand.Store.Key
import OnDemand.Table

/-!
# Objects in memory

Objects by normal key, listed in the order of keys. There are no directories of their own: a key that ends in a slash
is one when something lies below it.
-/

namespace OnDemand.Store

abbrev Memory := Table String Bytes

namespace Memory

def keysBelow (m : Memory) (key : String) : List String :=
  if key = "/" then m.keys else m.keys.filter fun k => key.toList.isPrefixOf k.toList

/-- Writes an object; a directory cannot be written. -/
def write (m : Memory) (key : String) (body : Bytes) : Memory :=
  if isDirectoryKey (normalKey key) then m else m.insert (normalKey key) body

def delete (m : Memory) (key : String) : Memory := m.erase (normalKey key)

def sizeOf (m : Memory) (key : String) : Except StoreError Nat :=
  let key := normalKey key
  if key = "/" then .ok 0
  else if isDirectoryKey key then (if (m.keysBelow key).isEmpty then .error .missing else .ok 0)
  else match m.get? key with
    | some body => .ok body.length
    | none => .error .missing

def read (m : Memory) (key : String) : Except StoreError Bytes :=
  match m.get? (normalKey key) with
  | some body => .ok body
  | none => .error .missing

def store (m : Memory) : ObjectStore where
  list key := .ok (m.keysBelow (normalKey key))
  probe _ := .ok ()
  size := m.sizeOf
  read := m.read

end Memory

end OnDemand.Store
