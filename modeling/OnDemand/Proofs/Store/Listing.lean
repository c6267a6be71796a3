import OnDemand.Proofs.Store.Normal
import OnDemand.Proofs.Table
import OnDemand.Store.Memory

/-!
# What a store shows of its objects

A store keeps its objects under keys in normal form. It lists every key below a place once, in some order, and a read
gives the bytes of the object or fails.
-/

namespace OnDemand

/-- `key` is one of the keys that a listing of `place` is about; every key is in the top directory. -/
def Store.IsBelow (place key : String) : Prop :=
  normalKey place = "/" ∨ (normalKey place).toList <+: key.toList

/-- `s` is a store that keeps `objects`. -/
structure ObjectStore.Presents (s : ObjectStore) (objects : Store.Memory) : Prop where
  normal : ∀ {key body}, objects.get? key = some body → Store.IsNormal key
  lists : ∀ place, ∃ keys, s.list place = .ok keys ∧ keys.Nodup ∧ ∀ key, key ∈ keys ↔
    objects.contains key = true ∧ Store.IsBelow place key
  reads : ∀ {key body bytes}, objects.get? key = some body → s.read key = .ok bytes → bytes = body

namespace ObjectStore

variable {s : ObjectStore} {objects : Store.Memory}

/-- The same store with its listings in another order. -/
def relisted (s : ObjectStore) (order : List String → List String) : ObjectStore :=
  { s with list := fun place => (s.list place).map order }

theorem Presents.relisted (h : s.Presents objects) {order : List String → List String}
    (horder : ∀ keys, (order keys).Perm keys) : (s.relisted order).Presents objects where
  normal := h.normal
  lists place := by
    obtain ⟨keys, hkeys, hnodup, hmem⟩ := h.lists place
    refine ⟨order keys, ?_, (horder keys).nodup_iff.2 hnodup, fun key => (horder keys).mem_iff.trans (hmem key)⟩
    simp only [ObjectStore.relisted, hkeys, Except.map]
  reads := h.reads

end ObjectStore

namespace Store.Memory

variable {m : Memory} {key : String}

theorem mem_keysBelow {place : String} :
    key ∈ m.keysBelow place ↔ m.contains key = true ∧ (place = "/" ∨ place.toList <+: key.toList) := by
  unfold keysBelow
  split
  · rename_i hplace
    simp [Table.mem_keys, hplace]
  · rename_i hplace
    simp [Table.mem_keys, hplace]

/-- Objects in memory are a store of themselves, if their keys are in normal form. -/
theorem presents (h : ∀ key ∈ m.keys, IsNormal key) : m.store.Presents m where
  normal hbody := h _ (Table.mem_keys.2 (Table.contains_iff.2 ⟨_, hbody⟩))
  lists place := by
    refine ⟨m.keysBelow (normalKey place), rfl, ?_, fun key => mem_keysBelow⟩
    unfold keysBelow
    split
    · exact Table.nodup_keys
    · exact Table.nodup_keys.filter _
  reads {key body bytes} hbody hread := by
    have hkey := normalKey_eq_self (h key (Table.mem_keys.2 (Table.contains_iff.2 ⟨_, hbody⟩)))
    simp only [store, read, hkey, hbody] at hread
    exact (Except.ok.inj hread).symm

end Store.Memory

end OnDemand
