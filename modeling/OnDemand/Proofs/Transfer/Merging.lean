import Mathlib.Data.List.Induction
import Mathlib.Data.List.Sort
import OnDemand.Proofs.Transfer.Segments

/-!
# Ranges by sorting and joining

To put a range among others one can append it, sort them all, and go through them from the first on, joining each to the
last one kept if it overlaps or touches that one. Adding a range comes to the same. So the ranges of a transfer are in
order and apart, and cover exactly what its segments cover.
-/

namespace OnDemand

namespace Span

variable {s t u : Span}

/-- The order of ranges: by their first position, and by their end where that is the same. -/
def le (s t : Span) : Bool := s.first < t.first || (s.first == t.first && s.stop ≤ t.stop)

theorem le_iff : s.le t = true ↔ s.first < t.first ∨ s.first = t.first ∧ s.stop ≤ t.stop := by
  simp [le]

theorem first_le_of_le (h : s.le t = true) : s.first ≤ t.first := by
  rw [le_iff] at h
  omega

theorem le_trans (h : s.le t = true) (h' : t.le u = true) : s.le u = true := by
  rw [le_iff] at *
  omega

theorem le_total (s t : Span) : (s.le t || t.le s) = true := by
  rw [Bool.or_eq_true, le_iff, le_iff]
  omega

theorem le_antisymm (h : s.le t = true) (h' : t.le s = true) : s = t := by
  obtain ⟨first, stop⟩ := s
  obtain ⟨first', stop'⟩ := t
  simp only [le_iff] at h h'
  rw [Span.mk.injEq]
  omega

instance : Std.Total fun s t : Span => s.le t = true := ⟨fun s t => Bool.or_eq_true_iff.1 (le_total s t)⟩

instance : IsTrans Span fun s t => s.le t = true := ⟨fun _ _ _ => le_trans⟩

end Span

namespace Coverage

variable {s t : Span} {c : Coverage}

/-- `s` and the ranges after it, where a range that begins before the end of the last one kept, or right there, is joined
to it. -/
def joinFrom (s : Span) : Coverage → Coverage
  | [] => [s]
  | t :: rest => if t.first ≤ s.stop then joinFrom ⟨s.first, max s.stop t.stop⟩ rest else s :: joinFrom t rest

def joined : Coverage → Coverage
  | [] => []
  | s :: rest => joinFrom s rest

/-! ## Adding comes to sorting and joining -/

theorem joinFrom_of_lt (h : ∀ t ∈ c, s.stop < t.first) : joinFrom s c = s :: joined c := by
  cases c with
  | nil => rfl
  | cons t rest => exact if_neg (Nat.not_le.2 (h t List.mem_cons_self))

theorem joined_of_separated (hc : c.Separated) : joined c = c := by
  induction c with
  | nil => rfl
  | cons t rest ih =>
    obtain ⟨ht, hrest⟩ := List.pairwise_cons.1 hc
    exact (joinFrom_of_lt ht).trans (by rw [ih hrest])

/-- A range that begins no later than all others is joined to the first ones of them. -/
theorem add_of_first_le (hs : s.first ≤ s.stop) (hc : c.Separated) (ho : ∀ t ∈ c, t.first ≤ t.stop)
    (hle : ∀ t ∈ c, s.first ≤ t.first) : add s c = joinFrom s c := by
  induction c generalizing s with
  | nil => rfl
  | cons t rest ih =>
    have hst := hle t List.mem_cons_self
    have ht := ho t List.mem_cons_self
    rw [add, joinFrom]
    by_cases htouch : t.first ≤ s.stop
    · rw [if_neg (Nat.not_lt.2 htouch), if_neg (by omega), if_pos htouch, Nat.min_eq_left hst]
      exact ih (by simp only; omega) (List.pairwise_cons.1 hc).2 (fun u hu => ho u (List.mem_cons_of_mem t hu))
        fun u hu => hle u (List.mem_cons_of_mem t hu)
    · have hjoined : t :: rest = joinFrom t rest := (joined_of_separated hc).symm
      rw [if_pos (Nat.not_le.1 htouch), if_neg htouch, ← hjoined]

theorem add_eq_joined_orderedInsert (hs : s.first ≤ s.stop) (hc : c.Separated) (ho : ∀ t ∈ c, t.first ≤ t.stop) :
    add s c = joined (c.orderedInsert (fun s t => s.le t = true) s) := by
  induction c with
  | nil => rfl
  | cons t rest ih =>
    have ht := ho t List.mem_cons_self
    obtain ⟨hfirst, hrest⟩ := List.pairwise_cons.1 hc
    have horest : ∀ u ∈ rest, u.first ≤ u.stop := fun u hu => ho u (List.mem_cons_of_mem t hu)
    by_cases hle : s.le t = true
    · rw [List.orderedInsert_cons_of_le _ rest hle]
      have hst := Span.first_le_of_le hle
      refine add_of_first_le hs hc ho fun u hu => ?_
      rcases List.mem_cons.1 hu with rfl | hu
      · exact hst
      · have := hfirst u hu
        omega
    have hts : t.first ≤ s.first := Span.first_le_of_le ((Bool.or_eq_true_iff.1 (Span.le_total s t)).resolve_left hle)
    rw [List.orderedInsert_of_not_le _ rest hle, joined, add, if_neg (by omega)]
    by_cases htouch : s.first ≤ t.stop
    · -- The new range begins before all that are left.
      have hbefore : ∀ u ∈ rest, s.first < u.first := fun u hu => Nat.lt_of_le_of_lt htouch (hfirst u hu)
      have hinsert : rest.orderedInsert (fun s t => s.le t = true) s = s :: rest := by
        cases rest with
        | nil => rfl
        | cons u rest => exact List.orderedInsert_cons_of_le _ rest (Span.le_iff.2 (.inl (hbefore u List.mem_cons_self)))
      rw [if_neg (Nat.not_lt.2 htouch), hinsert, joinFrom, if_pos htouch, Nat.min_eq_right hts, Nat.max_comm]
      exact add_of_first_le (by simp only; omega) hrest horest fun u hu => by
        have := hbefore u hu
        simp only
        omega
    · rw [if_pos (Nat.not_le.1 htouch), ih hrest horest]
      refine (joinFrom_of_lt fun u hu => ?_).symm
      rcases List.mem_cons.1 ((List.perm_orderedInsert _ s rest).mem_iff.1 hu) with rfl | hu
      · exact Nat.not_le.1 htouch
      · exact hfirst u hu

theorem mergeSort_append_singleton (hc : c.Separated) (ho : ∀ t ∈ c, t.first ≤ t.stop) :
    (c ++ [s]).mergeSort Span.le = c.orderedInsert (fun s t => s.le t = true) s := by
  have hsorted : c.Pairwise fun s t => s.le t = true := by
    refine List.Pairwise.imp_of_mem (fun {t u} ht hu hlt => Span.le_iff.2 (.inl ?_)) hc
    have := ho t ht
    omega
  have hperm : ((c ++ [s]).mergeSort Span.le).Perm (c.orderedInsert (fun s t => s.le t = true) s) :=
    ((List.mergeSort_perm _ _).trans (List.perm_append_singleton s c)).trans (List.perm_orderedInsert _ s c).symm
  have htrans (s t u : Span) : s.le t = true → t.le u = true → s.le u = true := Span.le_trans
  have hmerged : ((c ++ [s]).mergeSort Span.le).Pairwise fun s t => s.le t = true :=
    List.pairwise_mergeSort htrans Span.le_total _
  exact hperm.eq_of_pairwise (fun _ _ _ _ => Span.le_antisymm) hmerged (hsorted.orderedInsert s c)

/-- Adding a range to ranges that lie apart is to append it, sort, and join. -/
theorem Canonical.add_eq {length : Nat} (h : c.Canonical length) (hs : s.first ≤ s.stop) :
    c.add s = joined ((c ++ [s]).mergeSort Span.le) := by
  rw [mergeSort_append_singleton h.separated h.ordered, add_eq_joined_orderedInsert hs h.separated h.ordered]

end Coverage

/-! ## Transfers -/

namespace Transfer

variable {t : Transfer} {segments : List Segment} {s : Segment}

/-- The ranges of `t` are those of `segments`. -/
structure Received (segments : List Segment) (t : Transfer) : Prop where
  canonical : t.received.Canonical t.length
  covers : ∀ i, t.received.covers i ↔ ∃ s ∈ segments, s.offset ≤ i ∧ i < s.offset + s.data.length

theorem received_start (connection : ConnectionKey) (path : Path) (length : Nat) :
    (start connection path length).Received [] where
  canonical := Coverage.canonical_nil length
  covers i := by simp [start, Coverage.covers]

theorem Received.receive (h : t.Received segments) (hfit : s.offset + s.data.length ≤ t.length) :
    (t.receive s.offset s.data).Received (segments ++ [s]) where
  canonical := canonical_receive h.canonical hfit
  covers i := by
    rw [covers_receive h.canonical, h.covers]
    simp only [List.mem_append, List.mem_singleton, or_and_right, exists_or, exists_eq_left]
    exact or_comm

/-- The transfer after `segments`, received in this order. -/
def receiveAll (t : Transfer) (segments : List Segment) : Transfer :=
  segments.foldl (fun t s => t.receive s.offset s.data) t

@[simp] theorem receiveAll_append_singleton :
    t.receiveAll (segments ++ [s]) = (t.receiveAll segments).receive s.offset s.data := by
  simp [receiveAll]

@[simp] theorem length_receiveAll : (t.receiveAll segments).length = t.length := by
  induction segments generalizing t with
  | nil => rfl
  | cons s segments ih => exact ih

theorem received_receiveAll (connection : ConnectionKey) (path : Path) {length : Nat}
    (hfit : ∀ s ∈ segments, s.offset + s.data.length ≤ length) :
    ((start connection path length).receiveAll segments).Received segments := by
  induction segments using List.reverseRecOn with
  | nil => exact received_start connection path length
  | append_singleton segments s ih =>
    rw [receiveAll_append_singleton]
    refine (ih fun u hu => hfit u (List.mem_append_left _ hu)).receive ?_
    rw [length_receiveAll]
    exact hfit s (List.mem_append_right _ List.mem_cons_self)

/-- The ranges of `t` are in order and apart, they cover what `segments` cover, and `t` takes itself for complete exactly
if that is everything. -/
structure Represents (t : Transfer) (segments : List Segment) : Prop where
  sorted : t.received.Pairwise fun a b => a.first < b.first
  separated : t.received.Pairwise fun a b => a.stop < b.first
  covered : ∀ i, t.received.covers i ↔ ∃ s ∈ segments, s.offset ≤ i ∧ i < s.offset + s.data.length
  complete : t.isComplete = true ↔ t.length = 0 ∨ ∀ i < t.length, t.received.covers i

theorem Received.represents (h : t.Received segments) : t.Represents segments where
  sorted := by
    refine List.Pairwise.imp_of_mem (fun {a b} ha hb hlt => ?_) h.canonical.separated
    have := h.canonical.ordered a ha
    omega
  separated := h.canonical.separated
  covered := h.covers
  complete := by
    rw [isComplete, Coverage.isComplete_iff h.canonical]
    refine ⟨.inr, fun hall i hi => ?_⟩
    rcases hall with hempty | hall
    · omega
    · exact hall i hi

/-- To receive one more segment is to append its range, sort, and join. -/
theorem Received.received_receive (h : t.Received segments) :
    (t.receive s.offset s.data).received =
      Coverage.joined ((t.received ++ [Span.mk s.offset (s.offset + s.data.length)]).mergeSort Span.le) :=
  h.canonical.add_eq (s := ⟨s.offset, s.offset + s.data.length⟩) (Nat.le_add_right ..)

end Transfer

end OnDemand
