import OnDemand.Proofs.Transfer.Coverage
import OnDemand.Transfer.Basic

/-!
# A transfer is made of its segments

A pending transfer remembers its segments only as ranges and a buffer. These say what the whole list of segments
says: a position is covered if a segment covers it, and its byte is that of the last segment that does.
-/

namespace OnDemand

/-- Bytes supplied for the positions from `offset` on. -/
structure Segment where
  offset : Nat
  data : Bytes
deriving DecidableEq, Repr

namespace Segment

/-- The byte for position `i`, if the segment covers it. -/
def byte? (s : Segment) (i : Nat) : Option UInt8 := if i < s.offset then none else s.data[i - s.offset]?

theorem isSome_byte? {s : Segment} {i : Nat} :
    (s.byte? i).isSome = true ↔ s.offset ≤ i ∧ i < s.offset + s.data.length := by
  unfold byte?
  split
  · simp; omega
  · simp; omega

theorem byte?_eq_some {s : Segment} {i : Nat} {b : UInt8} :
    s.byte? i = some b ↔ s.offset ≤ i ∧ s.data[i - s.offset]? = some b := by
  unfold byte?
  split
  · simp; omega
  · rename_i h
    simp [Nat.not_lt.1 h]

end Segment

/-- The byte that the last of the segments covering position `i` has there. -/
def supplied? (segments : List Segment) (i : Nat) : Option UInt8 := segments.reverse.findSome? (·.byte? i)

theorem supplied?_nil (i : Nat) : supplied? [] i = none := rfl

theorem supplied?_append_singleton (segments : List Segment) (s : Segment) (i : Nat) :
    supplied? (segments ++ [s]) i = (s.byte? i).or (supplied? segments i) := by
  simp only [supplied?, List.reverse_append, List.reverse_singleton, List.singleton_append, List.findSome?_cons]
  cases s.byte? i <;> rfl

/-- A position has a byte exactly if one of the segments covers it. -/
theorem isSome_supplied? {segments : List Segment} {i : Nat} :
    (supplied? segments i).isSome = true ↔ ∃ s ∈ segments, s.offset ≤ i ∧ i < s.offset + s.data.length := by
  simp only [supplied?, List.findSome?_isSome_iff, List.mem_reverse, Segment.isSome_byte?]

namespace Transfer

/-! ## Receiving a segment -/

section

variable {t : Transfer} {offset : Nat} {data : Bytes}

theorem canonical_receive (h : t.received.Canonical t.length) (hfits : offset + data.length ≤ t.length) :
    (t.receive offset data).received.Canonical t.length :=
  h.add (by simp only; omega) hfits

theorem length_buffer_receive (h : t.buffer.length = t.length) (hfits : offset + data.length ≤ t.length) :
    (t.receive offset data).buffer.length = t.length := by
  rw [receive, Bytes.length_splice (by rw [h]; exact hfits), h]

theorem covers_receive (h : t.received.Canonical t.length) (i : Nat) :
    (t.receive offset data).received.covers i ↔ (offset ≤ i ∧ i < offset + data.length) ∨ t.received.covers i :=
  Coverage.covers_add (by simp only; omega) h.ordered i

theorem getElem?_buffer_receive (h : t.buffer.length = t.length) (hfits : offset + data.length ≤ t.length) (i : Nat) :
    (t.receive offset data).buffer[i]? =
      if offset ≤ i ∧ i < offset + data.length then data[i - offset]? else t.buffer[i]? :=
  Bytes.getElem?_splice (by rw [h]; exact hfits) i

end

/-! ## Segments received in a row -/

/-- The ranges and the buffer of `t` are those of `segments`, received in this order. -/
structure MadeOf (segments : List Segment) (t : Transfer) : Prop where
  canonical : t.received.Canonical t.length
  size : t.buffer.length = t.length
  covers : ∀ i, t.received.covers i ↔ (supplied? segments i).isSome = true
  bytes : ∀ i b, supplied? segments i = some b → t.buffer[i]? = some b

theorem madeOf_start (connection : ConnectionKey) (path : Path) (length : Nat) :
    (start connection path length).MadeOf [] where
  canonical := Coverage.canonical_nil length
  size := by simp [start]
  covers i := by simp [start, Coverage.covers, supplied?_nil]
  bytes i b h := by simp [supplied?_nil] at h

variable {t : Transfer} {segments : List Segment}

theorem MadeOf.receive (h : t.MadeOf segments) {offset : Nat} {data : Bytes}
    (hfit : offset + data.length ≤ t.length) : (t.receive offset data).MadeOf (segments ++ [⟨offset, data⟩]) where
  canonical := canonical_receive h.canonical hfit
  size := length_buffer_receive h.size hfit
  covers i := by
    rw [supplied?_append_singleton, Option.isSome_or, Bool.or_eq_true, Segment.isSome_byte?, ← h.covers]
    exact covers_receive h.canonical i
  bytes i b hb := by
    rw [getElem?_buffer_receive h.size hfit]
    rw [supplied?_append_singleton, Option.or_eq_some_iff] at hb
    rcases hb with hb | ⟨hnone, hb⟩
    · obtain ⟨hle, hget⟩ := Segment.byte?_eq_some.1 hb
      have hlt : i < offset + data.length := (Segment.isSome_byte?.1 (Option.isSome_of_eq_some hb)).2
      rw [if_pos ⟨hle, hlt⟩]
      exact hget
    · have hout : ¬(offset ≤ i ∧ i < offset + data.length) := fun hin => by
        have : (Segment.byte? ⟨offset, data⟩ i).isSome = true := Segment.isSome_byte?.2 hin
        simp [hnone] at this
      rw [if_neg hout]
      exact h.bytes i b hb

/-! ## The whole -/

theorem MadeOf.isComplete_iff (h : t.MadeOf segments) :
    t.isComplete = true ↔ ∀ i < t.length, ∃ s ∈ segments, s.offset ≤ i ∧ i < s.offset + s.data.length := by
  rw [isComplete, Coverage.isComplete_iff h.canonical]
  simp only [h.covers, isSome_supplied?]

/-- When the whole has come, every byte of the buffer is that of the last segment covering its position. -/
theorem MadeOf.buffer_eq (h : t.MadeOf segments) (hc : t.isComplete = true) {i : Nat} (hi : i < t.length) :
    t.buffer[i]? = supplied? segments i ∧ (supplied? segments i).isSome = true := by
  have hs : (supplied? segments i).isSome = true := (h.covers i).1 (Coverage.covers_of_isComplete hc hi)
  obtain ⟨b, hb⟩ := Option.isSome_iff_exists.1 hs
  exact ⟨by rw [hb]; exact h.bytes i b hb, hs⟩

end Transfer

end OnDemand
