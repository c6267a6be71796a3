import OnDemand.Proofs.Facility.Content
import OnDemand.Proofs.Facility.Frame

/-!
# How transfers end

A transfer ends once, as completed, as failed or by being removed, and stays as it is from then on. The log shows the
same: nothing is accepted for a transfer after its end.
-/

namespace OnDemand

/-- What can become of the transfer with a key that has been issued. -/
inductive Fate : Option Transfer → Option Transfer → Prop where
  | same (o : Option Transfer) : Fate o o
  | pending {t u : Transfer} (ht : t.isPending = true) (hu : u.isPending = true) (hc : u.connection = t.connection) :
      Fate (some t) (some u)
  | completed {t u : Transfer} (ht : t.isPending = true) (hu : u.phase = .completed) : Fate (some t) (some u)
  | failed {t u : Transfer} (ht : t.isPending = true) (s : Status) (hs : s.isSuccess = false)
      (hu : u.phase = .failed s) : Fate (some t) (some u)
  | removed {t : Transfer} (ht : t.isPending = true) : Fate (some t) none

namespace Fate

variable {o p q : Option Transfer}

theorem eq_of_ended (h : Fate o p) (ho : ∀ t, o = some t → t.isPending = false) : p = o := by
  cases h with
  | same => rfl
  | pending ht | completed ht | failed ht | removed ht =>
    rw [ho _ rfl] at ht
    cases ht

theorem trans (h : Fate o p) (h' : Fate p q) : Fate o q := by
  cases h with
  | same => exact h'
  | pending ht hu hc =>
    cases h' with
    | same => exact .pending ht hu hc
    | pending _ hv hc' => exact .pending ht hv (hc'.trans hc)
    | completed _ hv => exact .completed ht hv
    | failed _ s hs hv => exact .failed ht s hs hv
    | removed _ => exact .removed ht
  | completed ht hu =>
    rw [h'.eq_of_ended fun t he => by obtain rfl := Option.some.inj he; simp [Transfer.isPending, hu]]
    exact .completed ht hu
  | failed ht s hs hu =>
    rw [h'.eq_of_ended fun t he => by obtain rfl := Option.some.inj he; simp [Transfer.isPending, hu]]
    exact .failed ht s hs hu
  | removed ht =>
    rw [h'.eq_of_ended (by simp)]
    exact .removed ht

theorem of_eq {u : Transfer} (h : Fate o p) (hp : p = some u) : Fate o (some u) := hp ▸ h

theorem exists_pending {u : Transfer} (h : Fate o (some u)) (hu : u.isPending = true) :
    ∃ t, o = some t ∧ t.isPending = true ∧ u.connection = t.connection := by
  cases h with
  | same => exact ⟨u, rfl, hu, rfl⟩
  | pending ht _ hc => exact ⟨_, rfl, ht, hc⟩
  | completed _ hphase => simp [Transfer.isPending, hphase] at hu
  | failed _ s _ hphase => simp [Transfer.isPending, hphase] at hu

theorem phase {t u : Transfer} (h : Fate (some t) (some u)) :
    u.phase = t.phase ∨
      t.phase = .pending ∧ (u.phase = .completed ∨ ∃ s, u.phase = .failed s ∧ s.isSuccess = false) := by
  cases h with
  | same => exact .inl rfl
  | pending ht hu hc => simp_all [Transfer.isPending]
  | completed ht hu => exact .inr ⟨by simpa [Transfer.isPending] using ht, .inl hu⟩
  | failed ht s hs hu => exact .inr ⟨by simpa [Transfer.isPending] using ht, .inr ⟨s, hu, hs⟩⟩

end Fate

namespace Facility

variable {f g : Facility} {k : TransferKey} {m : Move} {ms : List Move}

theorem Next.fate (h : Next f m g) (hk : k.value ≤ f.lastTransfer) :
    Fate (f.transfers.get? k) (g.transfers.get? k) := by
  cases h with
  | disconnected key hm =>
    have hget : (f.transfers.mapValues fun _ t => closed key t).get? k = (f.transfers.get? k).map (closed key) :=
      Table.get?_mapValues ..
    simp only [hget]
    cases f.transfers.get? k with
    | none => exact .same _
    | some t =>
      simp only [Option.map_some, closed]
      split
      · rename_i hc
        exact .failed hc.2 .providerNotRunning (by decide) rfl
      · exact .same _
  | opened path hm hp hd hc =>
    have hne : k ≠ ⟨f.lastTransfer + 1⟩ := by
      rintro rfl
      simp only at hk
      omega
    simp only [Facility.opened, Table.get?_insert_of_ne hne]
    exact .same _
  | gaveUp reader hm ht hp =>
    by_cases hr : k = reader.transfer
    · subst hr
      simp only [ht, Table.get?_erase_self]
      exact .removed hp
    · simp only [Table.get?_erase_of_ne hr]
      exact .same _
  | failed op hm ht hs =>
    by_cases ho : k = op.transfer
    · subst ho
      simp only [logged, ht.transfer, Table.get?_insert_self]
      exact .failed ht.pending op.status hs rfl
    · simp only [logged, Table.get?_insert_of_ne ho]
      exact .same _
  | @received t data op hm ht hd hs =>
    by_cases ho : k = op.transfer
    · subst ho
      simp only [logged, ht.transfer, store_transfers, Table.get?_insert_self]
      split
      · exact .completed ht.pending rfl
      · exact .pending ht.pending ht.pending rfl
    · simp only [logged, store_transfers, Table.get?_insert_of_ne ho]
      exact .same _
  | _ => exact .same _

theorem fate_foldl (hk : k.value ≤ f.lastTransfer) (ms : List Move) :
    Fate (f.transfers.get? k) ((ms.foldl next f).transfers.get? k) := by
  induction ms generalizing f with
  | nil => exact .same _
  | cons m ms ih =>
    have hn := next_spec f m
    exact (hn.fate hk).trans (ih (Int.le_trans hk hn.lastTransfer_le))

theorem transfers_foldl_of_ended (hk : k.value ≤ f.lastTransfer)
    (he : ∀ t, f.transfers.get? k = some t → t.isPending = false) :
    (ms.foldl next f).transfers.get? k = f.transfers.get? k :=
  (fate_foldl hk ms).eq_of_ended he

/-! ## The log -/

def entry (op : TransferOperation) (accepted : Bool) : LoggedOperation :=
  ⟨op.connection, op.transfer, op.status, op.offset, op.length, accepted⟩

@[simp] theorem log_logged (op : TransferOperation) (accepted : Bool) :
    (f.logged op accepted).log = f.log ++ [entry op accepted] :=
  rfl

/-- What the log shows of a move from `f` to `g` that appends `x` to it. -/
structure Records (f g : Facility) (x : LoggedOperation) : Prop where
  pending : x.accepted = true → ∃ t, f.transfers.get? x.transfer = some t ∧ t.isPending = true
  failed : x.accepted = true → x.status.isSuccess = false →
    ∃ u, g.transfers.get? x.transfer = some u ∧ u.isPending = false

theorem log_execute (op : TransferOperation) :
    ∃ x, (f.next (.execute op)).log = f.log ++ [x] ∧ Records f (f.next (.execute op)) x := by
  rcases execute_cases op f with ⟨s, h⟩ | ⟨t, -, ht, ⟨hs, h⟩ | ⟨data, hd, h⟩⟩
  · exact ⟨entry op false, by simp [next, h, dropFault], nofun, nofun⟩
  · refine ⟨entry op true, by simp [next, h], fun _ => ⟨t, ht.transfer, ht.pending⟩, fun _ _ => ?_⟩
    exact ⟨t.fail op.status, by simp [next, h, logged, entry], rfl⟩
  · refine ⟨entry op true, by simp [next, h], fun _ => ⟨t, ht.transfer, ht.pending⟩, fun _ hs => ?_⟩
    rw [entry, hd.success] at hs
    cases hs

theorem log_next (f : Facility) (m : Move) :
    (f.next m).log = f.log ∨ ∃ x, (f.next m).log = f.log ++ [x] ∧ Records f (f.next m) x := by
  by_cases hm : ∃ op, m = .execute op
  · obtain ⟨op, rfl⟩ := hm
    exact .inr (log_execute op)
  · exact .inl ((frame_next f m).log fun op he => hm ⟨op, he⟩)

theorem log_foldl_of_ended (hk : k.value ≤ f.lastTransfer)
    (he : ∀ t, f.transfers.get? k = some t → t.isPending = false) (ms : List Move) :
    ∃ added, (ms.foldl next f).log = f.log ++ added ∧ ∀ x ∈ added, x.transfer = k → x.accepted = false := by
  induction ms generalizing f with
  | nil => exact ⟨[], by simp, nofun⟩
  | cons m ms ih =>
    have hn := next_spec f m
    have hkept := (hn.fate hk).eq_of_ended he
    obtain ⟨added, hlog, hadded⟩ := ih (Int.le_trans hk hn.lastTransfer_le) (by rwa [hkept])
    rcases log_next f m with hsame | ⟨x, hx, hrecords⟩
    · exact ⟨added, by rw [List.foldl_cons, hlog, hsame], hadded⟩
    · refine ⟨x :: added, by simp [hlog, hx], fun y hy hyk => ?_⟩
      rcases List.mem_cons.1 hy with rfl | hy
      · refine Bool.eq_false_iff.2 fun haccepted => ?_
        obtain ⟨t, ht, hp⟩ := hrecords.pending haccepted
        rw [he t (hyk ▸ ht)] at hp
        cases hp
      · exact hadded y hy hyk

def NotAfterFailure (x y : LoggedOperation) : Prop :=
  x.transfer = y.transfer → x.accepted = true → x.status.isSuccess = false → y.accepted = false

/-- Every transfer with an accepted failure in the log has ended, and the log shows nothing accepted for it since. -/
structure FailuresEnd (f : Facility) : Prop where
  log : f.log.Pairwise NotAfterFailure
  ended : ∀ x ∈ f.log, x.accepted = true → x.status.isSuccess = false →
    ∃ t, f.transfers.get? x.transfer = some t ∧ t.isPending = false

theorem FailuresEnd.next (h : FailuresEnd f)
    (hissued : ∀ {k t}, f.transfers.get? k = some t → k.value ≤ f.lastTransfer) : FailuresEnd (f.next m) := by
  have hended : ∀ x ∈ f.log, x.accepted = true → x.status.isSuccess = false →
      ∃ t, (f.next m).transfers.get? x.transfer = some t ∧ t.isPending = false := by
    intro x hx haccepted hfailure
    obtain ⟨t, ht, hp⟩ := h.ended x hx haccepted hfailure
    refine ⟨t, ?_, hp⟩
    rw [((next_spec f m).fate (hissued ht)).eq_of_ended fun u hu => by rwa [Option.some.inj (hu.symm.trans ht)], ht]
  rcases log_next f m with hsame | ⟨y, hy, hrecords⟩
  · exact ⟨hsame ▸ h.log, hsame ▸ hended⟩
  · refine ⟨?_, fun x hx => ?_⟩
    -- The new entry is accepted for a pending transfer, and no earlier failure has left one pending.
    · rw [hy, List.pairwise_append]
      refine ⟨h.log, List.pairwise_singleton _ _, fun x hx z hz hxz haccepted hfailure => ?_⟩
      obtain rfl := List.mem_singleton.1 hz
      refine Bool.eq_false_iff.2 fun hz => ?_
      obtain ⟨t, ht, hp⟩ := h.ended x hx haccepted hfailure
      obtain ⟨u, hu, hpending⟩ := hrecords.pending hz
      obtain rfl := Option.some.inj (ht.symm.trans (hxz ▸ hu))
      rw [hp] at hpending
      cases hpending
    · rw [hy] at hx
      rcases List.mem_append.1 hx with hx | hx
      · exact hended x hx
      · obtain rfl := List.mem_singleton.1 hx
        exact hrecords.failed

theorem failuresEnd_after (ms : List Move) : FailuresEnd (after ms) := by
  induction ms using List.reverseRecOn with
  | nil => exact ⟨.nil, nofun⟩
  | append_singleton ms m ih =>
    rw [after_append_singleton]
    exact ih.next (traced_after ms).issued

theorem log_of_completes {t u : Transfer} (ht : f.transfers.get? k = some t) (hp : t.phase = .pending)
    (hu : (f.next m).transfers.get? k = some u) (hc : u.phase = .completed) :
    ∃ x, (f.next m).log = f.log ++ [x] ∧ x.transfer = k ∧ x.accepted = true := by
  cases (next_spec f m).transferChange k with
  | kept h hs =>
    rw [h, ht] at hu
    simp [← Option.some.inj hu, hp] at hc
  | opened connection path hk hplaceholder hg hs =>
    rw [hg, hk] at hu
    simp only [opened, Table.get?_insert_self, Option.some.injEq] at hu
    simp [← hu, Transfer.start] at hc
  | failed status ht' hp' h hs =>
    rw [h] at hu
    simp [← Option.some.inj hu, Transfer.fail] at hc
  | removed ht' hp' h hs =>
    rw [h] at hu
    cases hu
  | received op hm hk ht' hd hg hs =>
    exact ⟨entry op true, by simp [hg], hk, rfl⟩

end Facility

end OnDemand
