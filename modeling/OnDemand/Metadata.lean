import OnDemand.Filetime

/-!
# Placeholder metadata

Size, the four file times and the attributes. In an amendment a zero time or zero attributes leave the
current value in place; the size is always taken over.
-/

namespace OnDemand

structure Metadata where
  size : Int
  created : Int
  accessed : Int
  written : Int
  changed : Int
  attributes : UInt32
deriving DecidableEq, Repr, Inhabited

namespace Metadata

def directoryAttribute : UInt32 := 0x10

def normalAttribute : UInt32 := 0x80

def isDirectory (m : Metadata) : Bool := m.attributes &&& directoryAttribute != 0

/-- The metadata of a new placeholder: one modification time for all four, and no size for a directory. -/
def initial (size mtime : Int) (directory : Bool) : Metadata :=
  let t := Filetime.ofUnix mtime
  { size := if directory then 0 else size
    created := t, accessed := t, written := t, changed := t
    attributes := if directory then directoryAttribute else normalAttribute }

theorem isDirectory_initial (size mtime : Int) (directory : Bool) :
    (initial size mtime directory).isDirectory = directory := by
  have hattributes : (initial size mtime directory).attributes =
      if directory = true then directoryAttribute else normalAttribute := rfl
  rw [isDirectory, hattributes]
  cases directory <;> decide

/-- An amendment that sets size, write and change time only. -/
def amendment (size mtime : Int) : Metadata :=
  let t := Filetime.ofUnix mtime
  { size, created := 0, accessed := 0, written := t, changed := t, attributes := 0 }

def amend (current amendment : Metadata) : Metadata :=
  let keep (old new : Int) := if new = 0 then old else new
  { size := amendment.size
    created := keep current.created amendment.created
    accessed := keep current.accessed amendment.accessed
    written := keep current.written amendment.written
    changed := keep current.changed amendment.changed
    attributes := if amendment.attributes = 0 then current.attributes else amendment.attributes }

/-- The size as a number of bytes; a negative size counts as none. -/
def byteSize (m : Metadata) : Nat := m.size.toNat

end Metadata

end OnDemand
