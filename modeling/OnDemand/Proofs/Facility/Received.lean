import OnDemand.Proofs.Facility.Content
import OnDemand.Proofs.Transfer.Merging

/-!
# The ranges of every transfer

In every run of the facility the ranges of a transfer are those of the segments that it has accepted. This holds when it
has ended too: completion and failure empty its buffer, and leave its ranges as they are.
-/

namespace OnDemand.Facility

variable {f g : Facility} {k : TransferKey} {m : Move} {t u : Transfer} {before : TransferKey → List Segment}

theorem Next.receivedSegments (hn : Next f m g) (hfresh : ∀ {k}, f.lastTransfer < k.value → before k = [])
    (h : ∀ {k t}, f.transfers.get? k = some t → t.Received (before k)) (hu : g.transfers.get? k = some u) :
    u.Received (before k ++ f.taken k m) := by
  cases hn.transferChange k with
  | kept hk hs =>
    rw [hk] at hu
    simpa [hs] using h hu
  | opened connection path hk hp hg hs =>
    subst hk hg
    have hnone : before ⟨f.lastTransfer + 1⟩ = [] := hfresh (Int.lt_succ _)
    obtain rfl : u = .start connection path _ := by simpa [Facility.opened, @eq_comm _ u] using hu
    simpa [hs, hnone] using Transfer.received_start connection path _
  | failed status ht hp hk hs =>
    rw [hk] at hu
    obtain rfl := Option.some.inj hu
    rw [hs, List.append_nil]
    exact ⟨(h ht).canonical, (h ht).covers⟩
  | removed ht hp hk hs =>
    rw [hk] at hu
    cases hu
  | @received t data op hm hk ht hd hg hs =>
    subst hk hg
    have hreceived := (h ht.transfer).receive (s := ⟨op.offset.toNat, data⟩) hd.fits
    rw [hs]
    simp only [logged, store_transfers, Table.get?_insert_self, Option.some.injEq] at hu
    split at hu
    · subst hu
      exact ⟨hreceived.canonical, hreceived.covers⟩
    · subst hu
      exact hreceived

theorem received_after {ms : List Move} (ht : (after ms).transfers.get? k = some t) : t.Received (segments k ms) := by
  induction ms using List.reverseRecOn generalizing k t with
  | nil => cases ht
  | append_singleton ms m ih =>
    rw [after_append_singleton] at ht
    rw [segments_append_singleton]
    exact (next_spec _ m).receivedSegments (traced_after ms).fresh ih ht

/-- Whatever segments fit, in any order: after each of them the ranges of the transfer are what sorting and joining makes
of the ranges before it and its own, and they represent all segments so far. So they do for every transfer in every run
of the facility. -/
theorem received_ranges_represent (connection : ConnectionKey) (path : Path) (length : Nat) (segments : List Segment)
    (hfit : ∀ s ∈ segments, s.offset + s.data.length ≤ length) :
    (∀ before s after, segments = before ++ s :: after →
      let t := (Transfer.start connection path length).receiveAll before
      (t.receive s.offset s.data).received =
        Coverage.joined ((t.received ++ [Span.mk s.offset (s.offset + s.data.length)]).mergeSort Span.le) ∧
      (t.receive s.offset s.data).Represents (before ++ [s])) ∧
    ((Transfer.start connection path length).receiveAll segments).Represents segments ∧
    ∀ ms k t, (after ms).transfers.get? k = some t → t.Represents (Facility.segments k ms) := by
  refine ⟨?_, (Transfer.received_receiveAll connection path hfit).represents, ?_⟩
  · rintro before s after rfl
    have hbefore : ∀ u ∈ before ++ [s], u.offset + u.data.length ≤ length := by
      intro u hu
      refine hfit u ?_
      rw [List.append_cons]
      exact List.mem_append_left after hu
    have hreceived := Transfer.received_receiveAll connection path fun u hu => hbefore u (List.mem_append_left _ hu)
    have hall := Transfer.received_receiveAll connection path hbefore
    rw [Transfer.receiveAll_append_singleton] at hall
    exact ⟨hreceived.received_receive, hall.represents⟩
  · intro ms k t ht
    exact (received_after ht).represents

/-- Segments of a file of four bytes: two that overlap, one that comes twice, and empty ones at its start, in its middle
and at its end. -/
def outOfOrder : List Segment := [⟨2, [7]⟩, ⟨4, []⟩, ⟨0, []⟩, ⟨3, [9]⟩, ⟨3, [9]⟩, ⟨1, []⟩, ⟨0, [5, 6, 6]⟩]

/-- Only the last one makes the file whole. -/
theorem received_ranges_represent_outOfOrder :
    let t := (Transfer.start ⟨0x1001⟩ ⟨"/r/a"⟩ 4).receiveAll outOfOrder.dropLast
    t.received = [⟨0, 0⟩, ⟨1, 1⟩, ⟨2, 4⟩] ∧ t.Represents outOfOrder.dropLast ∧
      (t.receive 0 [5, 6, 6]).received = [⟨0, 4⟩] ∧ (t.receive 0 [5, 6, 6]).Represents outOfOrder := by
  have hfit : ∀ s ∈ outOfOrder, s.offset + s.data.length ≤ 4 := by decide
  obtain ⟨hreceive, -, -⟩ := received_ranges_represent ⟨0x1001⟩ ⟨"/r/a"⟩ 4 outOfOrder hfit
  obtain ⟨-, hbefore, -⟩ := received_ranges_represent ⟨0x1001⟩ ⟨"/r/a"⟩ 4 outOfOrder.dropLast fun s hs =>
    hfit s (List.dropLast_subset _ hs)
  exact ⟨by decide, hbefore, by decide, (hreceive outOfOrder.dropLast ⟨0, [5, 6, 6]⟩ [] rfl).2⟩

end OnDemand.Facility
