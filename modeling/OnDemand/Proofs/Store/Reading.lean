import Mathlib.Algebra.GroupWithZero.Nat
import OnDemand.Proofs.Table
import OnDemand.Proofs.Text.Utf8
import OnDemand.Store.Memory
import OnDemand.Store.Reading

/-!
# Ranges of an object

From an object that the store reads exactly, a range gives the slice that lies in it, and nothing from its end on. So
ranges that lie end to end make up a prefix of the object.
-/

namespace OnDemand

theorem mapError_eq_ok {ε ε' α : Type} {x : Except ε α} {sort : ε → ε'} {a : α} :
    x.mapError sort = .ok a ↔ x = .ok a := by
  cases x with
  | error e =>
    constructor <;> intro h <;> cases h
  | ok b => constructor <;> intro h <;> cases h <;> rfl

theorem bind_eq_ok {ε α β : Type} {x : Except ε α} {rest : α → Except ε β} {b : β} :
    (x >>= rest) = .ok b ↔ ∃ a, x = .ok a ∧ rest a = .ok b := by
  cases x <;> simp [bind, Except.bind]

namespace Bytes

/-- A window is a slice between two positions of the bytes. -/
theorem window_eq_extract (b : Bytes) (offset length : Nat) :
    b.window offset length = List.extract b (min offset b.length) (min (offset + length) b.length) := by
  rw [window, List.extract_eq_take_drop]
  rcases Nat.le_total offset b.length with hle | hle
  · rw [Nat.min_eq_left hle, List.take_eq_take_iff, List.length_drop]
    omega
  · rw [List.drop_of_length_le hle, Nat.min_eq_right hle, List.drop_length, List.take_nil, List.take_nil]

theorem window_append_window (b : Bytes) (offset first second : Nat) :
    b.window offset first ++ b.window (offset + first) second = b.window offset (first + second) := by
  rw [window, window, window, ← List.drop_drop, List.take_add]

end Bytes

namespace ObjectStore

variable {store : ObjectStore} {identity : FileIdentity} {object : String} {content bytes : Bytes} {offset length : Nat}

/-- What the store returns for part of an object: nothing from the object's end on, and else what reading it gives. -/
theorem contentRange_ok :
    store.contentRange identity offset length = .ok bytes ↔
      ∃ object size, identity.text? = some object ∧ store.size object = .ok size ∧
        if min (Word.addCapped offset length) size ≤ offset then bytes = []
        else ∃ content, store.read object = .ok content ∧
          bytes = content.window offset (min (Word.addCapped offset length) size - offset) := by
  unfold ObjectStore.contentRange
  cases htext : identity.text? with
  | none => simp
  | some object =>
    simp only [ObjectStore.objectRange, bind_eq_ok, mapError_eq_ok, Option.some.injEq, exists_and_left, exists_eq_left']
    refine exists_congr fun size => and_congr_right fun _ => ?_
    split
    · simp only [pure, Except.pure, Except.ok.injEq, eq_comm]
    · simp only [bind_eq_ok, mapError_eq_ok, pure, Except.pure, Except.ok.injEq, @eq_comm _ bytes]

/-- The store has `content` as the object `object`, and reads it exactly. -/
structure Holds (store : ObjectStore) (object : String) (content : Bytes) : Prop where
  size : store.size object = .ok content.length
  read : store.read object = .ok content

/-- An object in memory is read as it was written. -/
theorem holds_write (m : Store.Memory) {key : String} (content : Bytes)
    (hkey : Store.isDirectoryKey (Store.normalKey key) = false) : (m.write key content).store.Holds key content := by
  have hget : (m.write key content).get? (Store.normalKey key) = some content := by
    simp [Store.Memory.write, hkey]
  have htop : Store.normalKey key ≠ "/" := by
    intro he
    rw [he] at hkey
    exact absurd hkey (by decide)
  exact ⟨by simp [Store.Memory.store, Store.Memory.sizeOf, htop, hkey, hget],
    by simp [Store.Memory.store, Store.Memory.read, hget]⟩

/-! ## One range -/

/-- No sum is cut off, or cutting it off makes no difference to this object. -/
theorem Holds.objectRange (h : store.Holds object content)
    (hword : offset + length ≤ Word.maxUnsigned ∨ content.length ≤ Word.maxUnsigned) :
    store.objectRange object offset length = .ok (content.window offset length) := by
  have hstop : min (Word.addCapped offset length) content.length = min (offset + length) content.length := by
    simp only [Word.addCapped]
    omega
  refine bind_eq_ok.2 ⟨content.length, mapError_eq_ok.2 h.size, ?_⟩
  simp only [hstop]
  split
  · have hempty : content.window offset length = [] := by
      refine List.eq_nil_of_length_eq_zero ?_
      rw [Bytes.length_window]
      omega
    rw [hempty]
    rfl
  · refine bind_eq_ok.2 ⟨content, mapError_eq_ok.2 h.read, ?_⟩
    have hwindow : content.window offset (min (offset + length) content.length - offset) =
        content.window offset length := by
      rw [Bytes.window, Bytes.window, List.take_eq_take_iff, List.length_drop]
      omega
    rw [hwindow]
    rfl

theorem Holds.contentRange (h : store.Holds object content) (hidentity : identity.text? = some object)
    (hword : offset + length ≤ Word.maxUnsigned ∨ content.length ≤ Word.maxUnsigned) :
    store.contentRange identity offset length = .ok (content.window offset length) := by
  unfold ObjectStore.contentRange
  rw [hidentity]
  exact h.objectRange hword

/-- `bytes` is what a source of `content` may return for a range: at most as many bytes as were asked for, those at the
range's beginning, and fewer only at the end of the content. -/
structure Serves (content : Bytes) (offset length : Nat) (bytes : Bytes) : Prop where
  bounded : bytes.length ≤ length
  placed : ∀ i < bytes.length, bytes[i]? = content[offset + i]?
  ended : bytes.length < length → content.length ≤ offset + bytes.length

theorem serves_window (content : Bytes) (offset length : Nat) :
    Serves content offset length (content.window offset length) where
  bounded := by
    rw [Bytes.length_window]
    omega
  placed i hi := by
    rw [Bytes.length_window] at hi
    rw [Bytes.window, List.getElem?_take_of_lt (by omega), List.getElem?_drop]
  ended hlt := by
    rw [Bytes.length_window] at hlt ⊢
    omega

/-! ## Ranges end to end -/

/-- Ranges of the given lengths, as offset and length, the first at `offset` and each of the others where the one before
it ends. -/
def rangesFrom (offset : Nat) : List Nat → List (Nat × Nat)
  | [] => []
  | length :: lengths => (offset, length) :: rangesFrom (offset + length) lengths

theorem Holds.ranges (h : store.Holds object content) (hidentity : identity.text? = some object)
    (hword : content.length ≤ Word.maxUnsigned) (offset : Nat) (lengths : List Nat) :
    ∃ pieces, (rangesFrom offset lengths).mapM (fun range => store.contentRange identity range.1 range.2) = .ok pieces ∧
      pieces.flatten = content.window offset lengths.sum := by
  induction lengths generalizing offset with
  | nil => exact ⟨[], rfl, by simp [Bytes.window]⟩
  | cons length lengths ih =>
    obtain ⟨pieces, hpieces, hflatten⟩ := ih (offset + length)
    refine ⟨content.window offset length :: pieces, ?_, ?_⟩
    · rw [rangesFrom, List.mapM_cons, h.contentRange hidentity (.inr hword), hpieces]
      rfl
    · rw [List.flatten_cons, hflatten, Bytes.window_append_window, List.sum_cons]

/-! ## The whole -/

/-- From an object that the store reads exactly, every range is answered with the slice of the object that lies in it, as
a source of content should, and ranges that lie end to end make up a prefix of it. The identity that asks for the object
is its key in UTF-8. -/
theorem ranges_are_slices (h : store.Holds object content) (hword : content.length ≤ Word.maxUnsigned) :
    (∀ offset length, store.objectRange object offset length =
      .ok (List.extract content (min offset content.length) (min (offset + length) content.length))) ∧
    (∀ offset length, ∃ bytes,
      store.contentRange (.ofText object) offset length = .ok bytes ∧ Serves content offset length bytes) ∧
    ∀ lengths, ∃ pieces,
      (rangesFrom 0 lengths).mapM (fun range => store.contentRange (.ofText object) range.1 range.2) = .ok pieces ∧
        pieces.flatten = content.take lengths.sum := by
  have hidentity : (FileIdentity.ofText object).text? = some object := FileIdentity.text?_eq_some.2 rfl
  refine ⟨fun offset length => ?_, fun offset length => ?_, fun lengths => ?_⟩
  · rw [h.objectRange (.inr hword), Bytes.window_eq_extract]
  · exact ⟨_, h.contentRange hidentity (.inr hword), serves_window content offset length⟩
  · exact h.ranges hidentity hword 0 lengths

/-- An object of three bytes whose key is not ASCII, in a store with another one. -/
def umlaut : Store.Memory := Store.Memory.write (.ofList [("o", [9])]) "/ü/ä" [1, 2, 3]

theorem ranges_are_slices_umlaut :
    (umlaut.store.Holds "/ü/ä" [1, 2, 3] ∧ [1, 2, 3].length ≤ Word.maxUnsigned) ∧
      umlaut.store.objectRange "/ü/ä" 2 Word.maxUnsigned = .ok [3] ∧ umlaut.store.objectRange "/ü/ä" 3 1 = .ok [] ∧
      ∃ pieces, [(0, 2), (2, 0), (2, 5), (7, 1)].mapM
          (fun range : Nat × Nat => umlaut.store.contentRange (.ofText "/ü/ä") range.1 range.2) = .ok pieces ∧
        pieces.flatten = [1, 2, 3] := by
  have hholds : umlaut.store.Holds "/ü/ä" [1, 2, 3] := holds_write _ _ (by decide +kernel)
  have hword : [1, 2, 3].length ≤ Word.maxUnsigned := by decide
  obtain ⟨hslices, -, hprefix⟩ := ranges_are_slices hholds hword
  exact ⟨⟨hholds, hword⟩, hslices 2 Word.maxUnsigned, hslices 3 1, hprefix [2, 0, 5, 1]⟩

end ObjectStore

end OnDemand
