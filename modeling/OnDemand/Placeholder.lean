import OnDemand.Identity
import OnDemand.Metadata
import OnDemand.Path

/-!
# Placeholders

A placeholder stands for a remote file or directory. It has the full size of the file, but holds its content
only while it is hydrated.
-/

namespace OnDemand

/-- What the facility is told about a placeholder to create. -/
structure NewPlaceholder where
  name : String
  identity : FileIdentity
  metadata : Metadata
  markInSync : Bool
  disableOnDemandPopulation : Bool
deriving DecidableEq, Repr, Inhabited

/-- New placeholders are in sync; directories are populated eagerly, never on demand. -/
def NewPlaceholder.of (name : String) (identity : FileIdentity) (size mtime : Int) (directory : Bool) :
    NewPlaceholder where
  name
  identity
  metadata := .initial size mtime directory
  markInSync := true
  disableOnDemandPopulation := directory

structure Placeholder where
  path : Path
  identity : FileIdentity
  metadata : Metadata
  inSync : Bool
  onDemandPopulation : Bool
  content : Option Bytes
  inUse : Bool
deriving DecidableEq, Repr, Inhabited

namespace Placeholder

def isDirectory (p : Placeholder) : Bool := p.metadata.isDirectory

/-- The bytes of content present locally. -/
def hydratedBytes (p : Placeholder) : Nat := (p.content.map List.length).getD 0

/-- Whether `hydrated` bytes are all that a placeholder with metadata size `size` can hold. -/
def isFull (size : Int) (hydrated : Nat) : Bool := size.toNat ≤ hydrated

def isHydrated (p : Placeholder) : Bool := isFull p.metadata.size p.hydratedBytes

def create (path : Path) (new : NewPlaceholder) : Placeholder where
  path
  identity := new.identity
  metadata := new.metadata
  inSync := new.markInSync
  onDemandPopulation := !new.disableOnDemandPopulation
  content := none
  inUse := false

/-- The placeholder after an update: new metadata and identity, in sync, the same content. -/
def update (p : Placeholder) (metadata : Metadata) (identity : FileIdentity) : Placeholder :=
  { p with metadata := p.metadata.amend metadata, identity, inSync := true }

end Placeholder

end OnDemand
