import OnDemand.Bytes

/-!
# Object stores

What the daemon needs of a store: the keys below a prefix, the size of an object, and its bytes. A range is read
by asking for the size first, so it is the part of the range that exists.
-/

namespace OnDemand

inductive StoreError where
  | missing
  | unavailable
deriving DecidableEq, Repr

structure ObjectStore where
  /-- The keys below a prefix. -/
  list : String → Except StoreError (List String)
  /-- Whether the directory of a prefix can be listed. -/
  probe : String → Except StoreError Unit
  size : String → Except StoreError Nat
  read : String → Except StoreError Bytes

inductive RangeError where
  | size (object : String)
  | read (object : String) (offset stop : Nat)
  | identity
deriving DecidableEq, Repr

def RangeError.message : RangeError → String
  | size object => s!"stat {object}"
  | read object offset stop => s!"reading {object} [{offset}, {stop})"
  | identity => "file identity is not a UTF-8 object key"

end OnDemand
