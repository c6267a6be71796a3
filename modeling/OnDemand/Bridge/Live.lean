import OnDemand.Key
import OnDemand.Path

/-!
# Live connections

The connection keys that have been opened and closed through one bridge. A key the table has never seen is not
stale: the facility may raise callbacks on a new connection before the key is known here.
-/

namespace OnDemand

structure LiveTable where
  opened : Table ConnectionKey Path
  closed : List ConnectionKey

namespace LiveTable

def empty : LiveTable := ⟨∅, []⟩

def contains (l : LiveTable) (key : ConnectionKey) : Bool := l.opened.contains key

/-- Whether `key` has been closed and not issued again since. -/
def isClosed (l : LiveTable) (key : ConnectionKey) : Bool := l.closed.contains key

def root? (l : LiveTable) (key : ConnectionKey) : Option Path := l.opened.get? key

def size (l : LiveTable) : Nat := l.opened.size

def isEmpty (l : LiveTable) : Bool := l.size == 0

def record (key : ConnectionKey) (root : Path) (l : LiveTable) : LiveTable :=
  ⟨l.opened.insert key root, l.closed.filter (· ≠ key)⟩

def retire (key : ConnectionKey) (l : LiveTable) : LiveTable :=
  ⟨l.opened.erase key, key :: l.closed.filter (· ≠ key)⟩

/-! ## What recording and retiring do -/

theorem isClosed_record (l : LiveTable) (key k : ConnectionKey) (root : Path) :
    (l.record key root).isClosed k = (l.isClosed k && k ≠ key) := by
  rw [Bool.eq_iff_iff]
  simp [isClosed, record]

theorem isClosed_retire (l : LiveTable) (key k : ConnectionKey) :
    (l.retire key).isClosed k = (k = key || l.isClosed k) := by
  rw [Bool.eq_iff_iff]
  by_cases h : k = key <;> simp [isClosed, retire, h]

theorem root?_record (l : LiveTable) (key k : ConnectionKey) (root : Path) :
    (l.record key root).root? k = if k = key then some root else l.root? k := by
  simp [root?, record, Table.get?_insert]

theorem root?_retire (l : LiveTable) (key k : ConnectionKey) :
    (l.retire key).root? k = if k = key then none else l.root? k := by
  simp [root?, retire, Table.get?_erase]

end LiveTable

end OnDemand
