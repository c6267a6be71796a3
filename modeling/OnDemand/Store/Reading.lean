import OnDemand.Identity
import OnDemand.Store.Basic
import OnDemand.Word

/-!
# Content of objects

The content of a placeholder is the object that its identity names.
-/

namespace OnDemand.ObjectStore

/-- The bytes of `object` at the positions `offset ≤ i < offset + length` that exist. -/
def objectRange (s : ObjectStore) (object : String) (offset length : Nat) : Except RangeError Bytes := do
  let size ← (s.size object).mapError fun _ => .size object
  let stop := min (Word.addCapped offset length) size
  if stop ≤ offset then return []
  let bytes ← (s.read object).mapError fun _ => .read object offset stop
  return bytes.window offset (stop - offset)

def contentRange (s : ObjectStore) (identity : FileIdentity) (offset length : Nat) : Except RangeError Bytes :=
  match identity.text? with
  | none => .error .identity
  | some object => s.objectRange object offset length

end OnDemand.ObjectStore
