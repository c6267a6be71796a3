import OnDemand.Proofs.Bridge.InMemory
import OnDemand.Proofs.Facility.Ending

/-!
# Transfers end once

In runs through a bridge over the facility in memory transfers end once. Answers on a key whose transfer is over are
stale, and leave nothing but a refused entry in the log.
-/

namespace OnDemand

theorem Status.isSuccess_asFailure (s : Status) : s.asFailure.isSuccess = false := by
  unfold asFailure
  split
  · decide
  · simp_all

namespace Facility

variable {f : Facility} {op : TransferOperation}

/-- What nothing awaits is refused because of a stale key. -/
theorem execute_stale (hf : f.faults .transfer = none) (h : ∀ t, ¬f.Awaits op t) :
    ∃ s, s.saysStale = true ∧ execute op f = (.error s, f.logged op false) := by
  have hbody : ∃ s, s.saysStale = true ∧ acceptOperation op f = .error s := by
    unfold acceptOperation
    simp only [check_bind]
    split
    · rename_i hopen
      split
      · rename_i t ht
        obtain ⟨ht, hp⟩ := Option.filter_eq_some_iff.1 ht
        simp only [decide_eq_true_eq] at hp
        exact absurd ⟨hopen, ht, hp.1, hp.2⟩ (h t)
      · exact ⟨.invalidRequest, by decide, rfl⟩
    · exact ⟨.providerNotRunning, by decide, rfl⟩
  obtain ⟨s, hs, hbody⟩ := hbody
  exact ⟨s, hs, by simp [execute, attempt, hf, dropFault_eq_self hf, hbody, logged, Except.isOk, Except.toBool]⟩

end Facility

namespace Usage

variable {u : Usage Facility} {m : Move Facility.Move} {ms rest : List (Move Facility.Move)} {k : TransferKey}

def Unplanned (ms : List (Move Facility.Move)) : Prop := ∀ s, .elsewhere (.planFault .transfer s) ∉ ms

/-! ## Keys whose transfer is over -/

def transfer? (u : Usage Facility) (k : TransferKey) : Option Transfer := u.bridge.facility.transfers.get? k

/-- Nothing can be accepted for `k` any more: if its transfer is pending, then on a connection that has been closed. -/
structure Over (u : Usage Facility) (k : TransferKey) : Prop where
  issued : k.value ≤ u.bridge.facility.lastTransfer
  pending : ∀ t, u.transfer? k = some t → t.isPending = true → u.bridge.live.isClosed t.connection = true

theorem Over.next (h : Over (run ms) k) (m : Move Facility.Move) : Over ((run ms).next react m) k := by
  rcases facility_next (run ms) m with hsame | ⟨fm, -, hfm⟩
  · refine ⟨hsame ▸ h.issued, fun t ht hp => isClosed_next (h.pending t ?_ hp)⟩
    rwa [transfer?, hsame] at ht
  · have hn := Facility.next_spec (run ms).bridge.facility fm
    rw [← hfm] at hn
    refine ⟨Int.le_trans h.issued hn.lastTransfer_le, fun u hu hp => ?_⟩
    -- What is pending after the move was pending before it, and a key that was closed stays closed.
    obtain ⟨t, ht, hpending, hconnection⟩ := ((hn.fate h.issued).of_eq hu).exists_pending hp
    rw [hconnection]
    exact isClosed_next (h.pending t ht hpending)

theorem Over.run (h : Over (run ms) k) (rest : List (Move Facility.Move)) : Over (run (ms ++ rest)) k := by
  induction rest using List.reverseRecOn with
  | nil => rwa [List.append_nil]
  | append_singleton rest m ih =>
    rw [← List.append_assoc, Usage.run, after_append_singleton]
    exact ih.next m

/-- Nothing has changed, but that a refusal of `op` may have been logged. -/
def OnlyLogs (op : TransferOperation) (b b' : Bridge Facility) : Prop :=
  b' = b ∨ b' = { b with facility := b.facility.logged op false }

theorem Over.stale (h : Over u k) (hclear : u.bridge.facility.faults .transfer = none) {connection : ConnectionKey}
    {offset : Nat} {act : Bridge.Act Facility TransferError Unit} {op : TransferOperation}
    (hact : Bridge.Answers connection k offset act op) (hfits : Word.fitsSigned offset = true) :
    (∃ s, (act u.bridge).1 = .error (.staleKey connection k s)) ∧ OnlyLogs op u.bridge (act u.bridge).2 := by
  obtain ⟨c, rfl, rfl, rfl⟩ := hact.exists_deliver
  cases hlive : u.bridge.live.isClosed connection with
  | true =>
    rw [Bridge.deliver_closed hfits hlive]
    exact ⟨⟨none, rfl⟩, .inl rfl⟩
  | false =>
    have hawaits : ∀ t, ¬u.bridge.facility.Awaits (c.operation connection k) t := by
      intro t ht
      have hget := ht.transfer
      have hconnection := ht.connection
      rw [Completion.operation_transfer] at hget
      rw [Completion.operation_connection] at hconnection
      have hclosed := h.pending t hget ht.pending
      rw [hconnection, hlive] at hclosed
      cases hclosed
    obtain ⟨s, hs, hexecute⟩ := Facility.execute_stale hclear hawaits
    rw [Bridge.deliver_executed (Bridge.asks_iff.2 ⟨hfits, hlive⟩), hexecute]
    refine ⟨⟨some s, ?_⟩, .inr rfl⟩
    show Except.error (TransferError.classify connection k s) = _
    rw [TransferError.classify, if_pos hs]

theorem failed_of_fail {b b' : Bridge Facility} {connection : ConnectionKey} {offset : Nat} {status : Status}
    (h : Bridge.fail connection k offset status b = (.ok (), b')) :
    ∃ t, b'.facility.transfers.get? k = some t ∧ t.phase = .failed status.asFailure := by
  have hasked : b.asks connection (.failure offset status) = true := Bridge.asked_of_deliver_ok (congrArg Prod.fst h)
  rw [Bridge.fail, Bridge.deliver_executed hasked] at h
  rcases Facility.execute_cases ((Completion.failure offset status).operation connection k) b.facility with
    ⟨s, he⟩ | ⟨t, -, -, ⟨-, he⟩ | ⟨data, hd, -⟩⟩
  · rw [he] at h
    exact nomatch (Prod.mk.inj h).1
  · rw [he] at h
    obtain ⟨-, rfl⟩ := Prod.mk.inj h
    exact ⟨t.fail status.asFailure, by simp [Facility.logged, Completion.operation, TransferOperation.failure], rfl⟩
  · have hs : status.asFailure.isSuccess = true := hd.success
    rw [Status.isSuccess_asFailure] at hs
    cases hs

/-- After the run `ms` the transfer `k` is over: it is no longer pending, or gone, or its connection was closed. -/
inductive Ended (ms : List (Move Facility.Move)) (k : TransferKey) : Prop where
  | left {t : Transfer} (ht : (run ms).transfer? k = some t) (hp : t.phase ≠ .pending)
  | removed (hk : k.value ≤ (run ms).bridge.facility.lastTransfer) (ht : (run ms).transfer? k = none)
  | disconnected {t : Transfer} (ht : (run ms).transfer? k = some t) (hc : ClosedIn react .empty t.connection ms)

theorem Ended.over (h : Ended ms k) : Over (run ms) k := by
  cases h with
  | left ht hp =>
    refine ⟨issued ⟨_, ht⟩, fun u hu hpending => ?_⟩
    obtain rfl := Option.some.inj (ht.symm.trans hu)
    simp [Transfer.isPending, hp] at hpending
  | removed hk ht =>
    refine ⟨hk, fun u hu => ?_⟩
    rw [ht] at hu
    cases hu
  | disconnected ht hc =>
    refine ⟨issued ⟨_, ht⟩, fun u hu hpending => ?_⟩
    obtain rfl := Option.some.inj (ht.symm.trans hu)
    exact (isClosed_iff ms).2 hc

theorem log_of_completes {t v : Transfer} (ht : (run ms).transfer? k = some t) (hp : t.phase = .pending)
    (hv : (run (ms ++ [m])).transfer? k = some v) (hc : v.phase = .completed) :
    ∃ x added, (run (ms ++ m :: rest)).bridge.facility.log = (run ms).bridge.facility.log ++ x :: added ∧
      x.transfer = k ∧ x.accepted = true ∧ ∀ y ∈ added, y.transfer = k → y.accepted = false := by
  have hnext : run (ms ++ [m]) = (run ms).next react m := after_append_singleton
  have hissued := issued ⟨v, hv⟩
  rw [transfer?, hnext] at hv
  rcases facility_next (run ms) m with hsame | ⟨fm, -, hfm⟩
  · rw [hsame] at hv
    obtain rfl := Option.some.inj (ht.symm.trans hv)
    rw [hp] at hc
    cases hc
  · rw [hfm] at hv
    obtain ⟨x, hx, hxk, haccepted⟩ := Facility.log_of_completes ht hp hv hc
    have hended : ∀ w, (run (ms ++ [m])).bridge.facility.transfers.get? k = some w → w.isPending = false := by
      intro w hw
      rw [hnext, hfm] at hw
      obtain rfl := Option.some.inj (hv.symm.trans hw)
      simp [Transfer.isPending, hc]
    obtain ⟨fms, hfms⟩ := facility_foldl (run (ms ++ [m])) rest
    obtain ⟨added, hlog, hadded⟩ := Facility.log_foldl_of_ended hissued hended fms
    refine ⟨x, added, ?_, hxk, haccepted, hadded⟩
    have hsplit : ms ++ m :: rest = (ms ++ [m]) ++ rest := by simp
    rw [hsplit, run_append, hfms, hlog, hnext, hfm, hx]
    simp

/-- Whatever else happens in a run: a phase changes once, from pending; a failure that is accepted leaves its transfer
failed; after the end of a transfer, answers on its key are stale and leave nothing but a refusal in the log; and the
log shows nothing accepted for a transfer after the entry that failed or completed it. -/
theorem transfers_end_once (ms rest : List (Move Facility.Move)) (k : TransferKey) :
    (∀ t v, (run ms).transfer? k = some t → (run (ms ++ rest)).transfer? k = some v →
      v.phase = t.phase ∨
        t.phase = .pending ∧ (v.phase = .completed ∨ ∃ s, v.phase = .failed s ∧ s.isSuccess = false)) ∧
    (∀ connection offset status b, Bridge.fail connection k offset status (run ms).bridge = (.ok (), b) →
      ∃ t s, b.facility.transfers.get? k = some t ∧ t.phase = .failed s ∧ s.isSuccess = false) ∧
    (Ended ms k → Unplanned (ms ++ rest) → ∀ connection offset act op, Bridge.Answers connection k offset act op →
      Word.fitsSigned offset = true →
      (∃ s, (act (run (ms ++ rest)).bridge).1 = .error (.staleKey connection k s)) ∧
        OnlyLogs op (run (ms ++ rest)).bridge (act (run (ms ++ rest)).bridge).2) ∧
    (run ms).bridge.facility.log.Pairwise Facility.NotAfterFailure ∧
    (∀ m t v, (run ms).transfer? k = some t → t.phase = .pending → (run (ms ++ [m])).transfer? k = some v →
      v.phase = .completed → ∃ x added,
        (run (ms ++ m :: rest)).bridge.facility.log = (run ms).bridge.facility.log ++ x :: added ∧
          x.transfer = k ∧ x.accepted = true ∧ ∀ y ∈ added, y.transfer = k → y.accepted = false) := by
  refine ⟨?_, ?_, ?_, ?_, ?_⟩
  · intro t v ht hv
    obtain ⟨fms, hfms⟩ := facility_foldl (run ms) rest
    rw [transfer?, run_append, hfms] at hv
    have hfate := Facility.fate_foldl (issued ⟨t, ht⟩) fms
    rw [show (run ms).bridge.facility.transfers.get? k = some t from ht, hv] at hfate
    exact hfate.phase
  · intro connection offset status b h
    obtain ⟨t, ht, hphase⟩ := failed_of_fail h
    exact ⟨t, status.asFailure, ht, hphase, status.isSuccess_asFailure⟩
  · intro hended hunplanned connection offset act op hact hfits
    exact (hended.over.run rest).stale (clear_of_never_planned hunplanned) hact hfits
  · obtain ⟨fms, hfms⟩ := exists_after ms
    rw [hfms]
    exact (Facility.failuresEnd_after fms).log
  · intro m t v ht hp hv hc
    exact log_of_completes ht hp hv hc

/-- A file of two bytes is hydrated. -/
def hydration : List (Move Facility.Move) :=
  [.elsewhere (.register ⟨"/r"⟩ (.new "r" "1")), .connect ⟨"/r"⟩ none, .create ⟨"/r"⟩ "a" (.ofText "o") 2 0 false,
    .elsewhere (.begin ⟨"/r/a"⟩), .deliver ⟨0x1001⟩ ⟨1⟩ (.data 0 [1, 2])]

theorem transfers_end_once_hydration :
    Ended hydration ⟨1⟩ ∧ Unplanned (hydration ++ [.close 0]) ∧
      ∃ s, (Bridge.fail ⟨0x1001⟩ ⟨1⟩ 0 .success (run (hydration ++ [.close 0])).bridge).1 =
        .error (.staleKey ⟨0x1001⟩ ⟨1⟩ s) := by
  have hphase : ((run hydration).transfer? ⟨1⟩).map Transfer.phase = some .completed := by decide +kernel
  obtain ⟨t, ht, hcompleted⟩ := Option.map_eq_some_iff.1 hphase
  have hended : Ended hydration ⟨1⟩ := .left ht (by rw [hcompleted]; decide)
  have hunplanned : Unplanned (hydration ++ [.close 0]) := fun s => by simp [hydration]
  exact ⟨hended, hunplanned,
    ((transfers_end_once hydration [.close 0] ⟨1⟩).2.2.1 hended hunplanned _ 0 _ _ (.fail .success) (by decide)).1⟩

end Usage

end OnDemand
