import OnDemand.Proofs.Checked
import OnDemand.Proofs.Facility.Content

/-!
# Transfers within words and buffers

The transfer operation with its sums checked against unsigned words, and its writes against the buffer of the transfer.
In a run in which sizes are signed words it is the unchecked one: a pending transfer has as many bytes in its buffer as
it has in all, so that a segment that fits the transfer fits the buffer.
-/

namespace OnDemand

/-- The numbers and the segment of `op` are such as signed words can count. -/
structure TransferOperation.InWords (op : TransferOperation) : Prop where
  offset : Word.fitsSigned op.offset = true
  length : Word.fitsSigned op.length = true
  buffer : ∀ data, op.buffer = some data → (data.length : Int) ≤ Word.maxSigned

namespace Transfer

/-- The position of the file that is the first one of the transfer. -/
def origin (_ : Transfer) : Nat := 0

/-- `receive`, with the end of the segment and the write checked. -/
def receive? (t : Transfer) (start : Nat) (data : Bytes) : Option Transfer := do
  let stop ← Word.add? start data.length
  let buffer ← t.buffer.overwrite? start stop data
  return { t with buffer, received := t.received.add ⟨start, stop⟩ }

/-- A buffer for the whole of a transfer whose length is a signed word. -/
structure Allocated (t : Transfer) : Prop where
  size : t.buffer.length = t.length
  length : (t.length : Int) ≤ Word.maxSigned

theorem Allocated.receive?_eq {t : Transfer} (ht : t.Allocated) {start : Nat} {data : Bytes}
    (hfit : start + data.length ≤ t.length) : t.receive? start data = some (t.receive start data) := by
  have hlength := ht.length
  have hstop : Word.add? start data.length = some (start + data.length) := Word.add?_of_signed (by omega) (by omega)
  have hwrite := Bytes.overwrite?_eq_splice (ht.size ▸ hfit)
  simp [receive?, receive, hstop, hwrite]

end Transfer

namespace Facility

variable {f g : Facility} {m : Move} {ms : List Move} {k : TransferKey} {t : Transfer} {op : TransferOperation}

/-! ## The checked operation -/

/-- `receiveSegment`, with every sum and the write checked. The outer option is none where a check fails. -/
def receiveSegment? (t : Transfer) (op : TransferOperation) : Option (Except Status Transfer) :=
  match op.buffer with
  | none => some (.error .invalidArgument)
  | some data =>
    if op.offset < 0 ∨ op.length ≠ Word.toSigned data.length then some (.error .invalidArgument)
    else do
      let stop ← Word.add? op.offset.toNat data.length
      let bound ← Word.add? t.origin t.length
      if op.offset.toNat < t.origin ∨ bound < stop then return .error .invalidArgument
      return .ok (← t.receive? (op.offset.toNat - t.origin) data)

def acceptOperation? (op : TransferOperation) (f : Facility) : Option (Except Status (Unit × Facility)) :=
  if !f.connections.contains op.connection then some (.error .providerNotRunning)
  else match (f.transfers.get? op.transfer).filter fun t => t.connection = op.connection ∧ t.isPending with
    | none => some (.error .invalidRequest)
    | some t =>
      if !op.status.isSuccess then
        some (.ok ((), { f with transfers := f.transfers.insert op.transfer (t.fail op.status) }))
      else (receiveSegment? t op).map fun received => do
        let t ← received
        if t.isComplete then
          return ((), { f with
            transfers := f.transfers.insert op.transfer t.complete
            placeholders := commit f.placeholders t })
        return ((), { f with transfers := f.transfers.insert op.transfer t })

/-- `attempt`, with a body that may be none. -/
def attempt? {α : Type} (op : Operation) (body : Facility → Option (Except Status (α × Facility))) (f : Facility) :
    Option (Except Status α × Facility) :=
  let g := f.dropFault op
  match f.faults op with
  | some status => some (.error status, g)
  | none =>
    (body g).map fun
      | .error status => (.error status, g)
      | .ok (a, h) => (.ok a, h)

def execute? (op : TransferOperation) (f : Facility) : Option (Except Status Unit × Facility) :=
  (attempt? .transfer (acceptOperation? op) f).map fun (outcome, g) => (outcome, g.logged op outcome.isOk)

theorem receiveSegment?_eq (ht : t.Allocated) (hop : op.InWords) :
    receiveSegment? t op = some (receiveSegment t op) := by
  have hoffset := (Word.fitsSigned_iff.1 hop.offset).2
  have hlength := ht.length
  unfold receiveSegment? receiveSegment
  cases hbuffer : op.buffer with
  | none => rfl
  | some data =>
    have hdata := hop.buffer data hbuffer
    simp only [check_bind, Word.toSigned_eq_self hdata]
    by_cases hvalid : op.offset < 0 ∨ op.length ≠ data.length
    · rw [if_pos hvalid, if_neg]
      simp only [Bool.and_eq_true, decide_eq_true_eq]
      omega
    · have hstop := Word.add?_of_signed (a := op.offset.toNat) (b := data.length) (by omega) hdata
      have hbound : Word.add? t.origin t.length = some t.length := by
        rw [Transfer.origin, Word.add?_of_signed (by decide) hlength, Nat.zero_add]
      rw [if_neg hvalid, if_pos (by simp only [Bool.and_eq_true, decide_eq_true_eq]; omega)]
      simp only [hstop, hbound, Option.bind_eq_bind, Option.bind_some]
      simp only [Transfer.origin, Nat.not_lt_zero, false_or, Nat.sub_zero]
      by_cases hfit : op.offset.toNat + data.length ≤ t.length
      · simp [hfit, Nat.not_lt.2 hfit, ht.receive?_eq hfit, pure, Except.pure]
      · simp [hfit, Nat.not_le.1 hfit]

theorem acceptOperation?_eq (hf : ∀ k t, f.transfers.get? k = some t → t.isPending = true → t.Allocated)
    (hop : op.InWords) : acceptOperation? op f = some (acceptOperation op f) := by
  unfold acceptOperation? acceptOperation
  simp only [check_bind]
  cases f.connections.contains op.connection with
  | false => rfl
  | true =>
    cases hfilter : (f.transfers.get? op.transfer).filter fun t => t.connection = op.connection ∧ t.isPending with
    | none => rfl
    | some t =>
      obtain ⟨ht, hawaits⟩ := Option.filter_eq_some_iff.1 hfilter
      have hpending : t.isPending = true := by simpa using (of_decide_eq_true hawaits).2
      have hreceive := receiveSegment?_eq (hf op.transfer t ht hpending) hop
      cases hs : op.status.isSuccess with
      | false => rfl
      | true =>
        simp only [hreceive, Option.map_some]
        rfl

theorem attempt?_eq {α : Type} {operation : Operation} {body : Facility → Except Status (α × Facility)}
    {body? : Facility → Option (Except Status (α × Facility))}
    (h : body? (f.dropFault operation) = some (body (f.dropFault operation))) :
    attempt? operation body? f = some (attempt operation body f) := by
  unfold attempt? attempt
  cases f.faults operation with
  | some status => rfl
  | none =>
    simp only [h, Option.map_some]
    cases body (f.dropFault operation) <;> rfl

theorem execute?_eq (hf : ∀ k t, f.transfers.get? k = some t → t.isPending = true → t.Allocated) (hop : op.InWords) :
    execute? op f = some (execute op f) := by
  have haccept : acceptOperation? op (f.dropFault .transfer) = some (acceptOperation op (f.dropFault .transfer)) :=
    acceptOperation?_eq hf hop
  rw [execute?, attempt?_eq haccept]
  rfl

/-! ## Runs in which sizes are signed words -/

/-- The size that `m` gives a placeholder, if it does, is a signed word. -/
def Move.InWords : Move → Prop
  | .create _ new => Word.fitsSigned new.metadata.size = true
  | .update _ metadata _ => Word.fitsSigned metadata.size = true
  | _ => True

/-- No placeholder and no transfer is larger than a signed word. -/
structure Sized (f : Facility) : Prop where
  placeholders : ∀ {ρ p}, f.placeholders.get? ρ = some p → p.metadata.size ≤ Word.maxSigned
  transfers : ∀ {k t}, f.transfers.get? k = some t → (t.length : Int) ≤ Word.maxSigned

theorem sized_empty : Sized empty where
  placeholders h := by cases h
  transfers h := by cases h

theorem Sized.next (h : Sized f) (hm : m.InWords) (hn : Next f m g) : Sized g where
  placeholders := by
    intro ρ p hp
    cases hn.placeholderChange ρ with
    | kept hg => exact h.placeholders (hg ▸ hp)
    | removed root hroot hg =>
      rw [hg] at hp
      cases hp
    | created parent new hcreate hρ hf hg =>
      subst hcreate
      obtain rfl := Option.some.inj (hg.symm.trans hp)
      exact (Word.fitsSigned_iff.1 hm).2
    | updated path metadata identity hupdate hρ hf hg =>
      subst hupdate
      obtain rfl := Option.some.inj (hg.symm.trans hp)
      exact (Word.fitsSigned_iff.1 hm).2
    | evicted path hm hf hg =>
      have hsize := h.placeholders hf
      obtain rfl := Option.some.inj (hg.symm.trans hp)
      exact hsize
    | marked path inUse hm hf hg =>
      have hsize := h.placeholders hf
      obtain rfl := Option.some.inj (hg.symm.trans hp)
      exact hsize
    | filled path data hm hρ hput hf hg =>
      have hsize := h.placeholders hf
      obtain rfl := Option.some.inj (hg.symm.trans hp)
      exact hsize
    | committed op hm ht hd hc hnext hs hρ hf hg =>
      have hsize := h.placeholders hf
      obtain rfl := Option.some.inj (hg.symm.trans hp)
      exact hsize
  transfers := by
    intro k u hu
    cases hn.transferChange k with
    | kept hk hs => exact h.transfers (hk ▸ hu)
    | @opened p connection path hk hp hg hs =>
      subst hk hg
      obtain rfl : u = .start connection path _ := by simpa [Facility.opened, @eq_comm _ u] using hu
      have hsize := h.placeholders hp
      simp only [Transfer.start, Metadata.byteSize, Word.maxSigned] at hsize ⊢
      omega
    | failed status ht hp hk hs =>
      have hlength := h.transfers ht
      obtain rfl := Option.some.inj (hk.symm.trans hu)
      exact hlength
    | removed ht hp hk hs =>
      rw [hk] at hu
      cases hu
    | @received t data op hm hk ht hd hg hs =>
      subst hk hg
      have hlength := h.transfers ht.transfer
      simp only [logged, store_transfers, Table.get?_insert_self, Option.some.injEq] at hu
      split at hu <;> (subst hu; exact hlength)

theorem sized_after (hms : ∀ m ∈ ms, m.InWords) : Sized (after ms) := by
  induction ms using List.reverseRecOn with
  | nil => exact sized_empty
  | append_singleton ms m ih =>
    rw [after_append_singleton]
    exact (ih fun n hn => hms n (List.mem_append_left _ hn)).next (hms m (by simp)) (next_spec _ m)

/-- A pending transfer has its whole buffer. -/
theorem allocated_after (hms : ∀ m ∈ ms, m.InWords) (ht : (after ms).transfers.get? k = some t)
    (hp : t.isPending = true) : t.Allocated :=
  ⟨((traced_after ms).made ht hp).size, (sized_after hms).transfers ht⟩

/-- After a run in which sizes are signed words the checked operation is the unchecked one. -/
theorem execute?_after (hms : ∀ m ∈ ms, m.InWords) (hop : op.InWords) :
    execute? op (after ms) = some (execute op (after ms)) :=
  execute?_eq (fun _ _ ht hp => allocated_after hms ht hp) hop

end Facility

end OnDemand
