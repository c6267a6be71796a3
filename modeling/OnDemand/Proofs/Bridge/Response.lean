import OnDemand.Bridge.Response
import OnDemand.Facility.Recorded
import OnDemand.Proofs.Facility.Run

/-!
# What an answer to a fetch comes to

An answer is held back if its offset is beyond a signed word or its connection has been closed. Any other answer is one
call on the facility, whose refusal comes back sorted. No answer changes the live table.
-/

namespace OnDemand

@[simp] theorem Completion.operation_connection (connection : ConnectionKey) (k : TransferKey) (c : Completion) :
    (c.operation connection k).connection = connection := by
  cases c <;> rfl

@[simp] theorem Completion.operation_transfer (connection : ConnectionKey) (k : TransferKey) (c : Completion) :
    (c.operation connection k).transfer = k := by
  cases c <;> rfl

@[simp] theorem Completion.operation_offset (connection : ConnectionKey) (k : TransferKey) (c : Completion) :
    (c.operation connection k).offset = c.offset := by
  cases c <;> rfl

theorem fitsSigned_natCast {n : Nat} : Word.fitsSigned (n : Int) = true ↔ (n : Int) ≤ Word.maxSigned := by
  rw [Word.fitsSigned_iff, Word.minSigned]
  omega

namespace Bridge

variable {σ : Type} {b : Bridge σ} {connection : ConnectionKey} {k : TransferKey} {c : Completion}

/-- The facility is asked about an answer like `c` on `connection`. -/
def asks (b : Bridge σ) (connection : ConnectionKey) (c : Completion) : Bool :=
  Word.fitsSigned c.offset && !b.live.isClosed connection

theorem asks_iff :
    b.asks connection c = true ↔ Word.fitsSigned c.offset = true ∧ b.live.isClosed connection = false := by
  simp [asks]

variable [CloudFacility σ]

theorem deliver_beyond (h : Word.fitsSigned c.offset = false) :
    b.deliver connection k c = (.error (.rejected connection k .invalidArgument), b) := by
  simp [deliver, h, refuse]

theorem deliver_closed (h : Word.fitsSigned c.offset = true) (hclosed : b.live.isClosed connection = true) :
    b.deliver connection k c = (.error (.staleKey connection k none), b) := by
  simp [deliver, h, execute, hclosed]

theorem deliver_asked (h : b.asks connection c = true) :
    b.deliver connection k c =
      ask (CloudFacility.executeTransfer (c.operation connection k)) (.classify connection k) b := by
  obtain ⟨hfits, hopen⟩ := asks_iff.1 h
  simp [deliver, hfits, execute, hopen]

theorem deliver_not_asked (h : b.asks connection c = false) : (b.deliver connection k c).2 = b := by
  cases hfits : Word.fitsSigned c.offset with
  | false => rw [deliver_beyond hfits]
  | true =>
    have hclosed : b.live.isClosed connection = true := by simpa [asks, hfits] using h
    rw [deliver_closed hfits hclosed]

@[simp] theorem live_deliver : (b.deliver connection k c).2.live = b.live := by
  cases h : b.asks connection c with
  | false => rw [deliver_not_asked h]
  | true =>
    rw [deliver_asked h]
    rfl

theorem classify_ne_none (s : Status) : TransferError.classify connection k s ≠ .staleKey connection k none := by
  unfold TransferError.classify
  split <;> simp

/-- The live table alone makes an answer stale exactly if its connection has been closed. -/
theorem deliver_eq_staleKey_none (h : Word.fitsSigned c.offset = true) :
    (b.deliver connection k c).1 = .error (.staleKey connection k none) ↔ b.live.isClosed connection = true := by
  cases hclosed : b.live.isClosed connection with
  | true => simp [deliver_closed h hclosed]
  | false =>
    rw [deliver_asked (asks_iff.2 ⟨h, hclosed⟩)]
    show (CloudFacility.executeTransfer (c.operation connection k) b.facility).1.mapError _ = _ ↔ _
    cases (CloudFacility.executeTransfer (c.operation connection k) b.facility).1 with
    | ok _ => constructor <;> intro h <;> cases h
    | error s =>
      constructor
      · intro h
        exact absurd (Except.error.inj h) (classify_ne_none s)
      · intro h
        cases h

theorem asked_of_deliver_ok (h : (b.deliver connection k c).1 = .ok ()) : b.asks connection c = true := by
  cases hfits : Word.fitsSigned c.offset with
  | false => simp [deliver_beyond hfits] at h
  | true =>
    cases hclosed : b.live.isClosed connection with
    | false => exact asks_iff.2 ⟨hfits, hclosed⟩
    | true => simp [deliver_closed hfits hclosed] at h

theorem deliver_executed {b : Bridge Facility} (h : b.asks connection c = true) :
    b.deliver connection k c =
      ((Facility.execute (c.operation connection k) b.facility).1.mapError (.classify connection k),
        { b with facility := (Facility.execute (c.operation connection k) b.facility).2 }) :=
  deliver_asked h

/-- In memory, an answer is one move of the facility or none. -/
theorem deliver_facility (connection : ConnectionKey) (k : TransferKey) (c : Completion) (b : Bridge Facility) :
    (b.deliver connection k c).2.facility = b.facility ∨
      (b.deliver connection k c).2.facility = b.facility.next (.execute (c.operation connection k)) := by
  unfold Bridge.deliver
  split
  · unfold Bridge.execute
    split
    · exact .inl rfl
    · exact .inr rfl
  · exact .inl rfl

/-- The answer reaches the facility: it leaves the note of one transfer operation there. -/
def Reaches (act : Act (Recorded σ) TransferError Unit) (op : TransferOperation) (b : Bridge (Recorded σ)) : Prop :=
  ∃ refusal, (act b).2.facility.notes = b.facility.notes ++ [.execute op refusal]

theorem reaches_deliver {b : Bridge (Recorded σ)} :
    Reaches (deliver connection k c) (c.operation connection k) b ↔ b.asks connection c = true := by
  cases h : b.asks connection c with
  | false => simp [Reaches, deliver_not_asked h]
  | true =>
    simp only [Reaches, deliver_asked h, iff_true]
    exact ⟨_, rfl⟩

/-! ## The three ways to answer -/

/-- `act` answers the fetch `k` at `offset`, with `op` as what the facility is to be asked. -/
inductive Answers (connection : ConnectionKey) (k : TransferKey) (offset : Nat) :
    Act σ TransferError Unit → TransferOperation → Prop where
  | complete (bytes : Bytes) :
      Answers connection k offset (complete connection k bytes offset) (.data connection k bytes offset)
  | fail (status : Status) :
      Answers connection k offset (fail connection k offset status) (.failure connection k offset status.asFailure)
  | deliver (c : Completion) (hc : c.offset = offset) :
      Answers connection k offset (deliver connection k c) (c.operation connection k)

theorem Answers.exists_deliver {offset : Nat} {act : Act σ TransferError Unit} {op : TransferOperation}
    (h : Answers connection k offset act op) :
    ∃ c, c.offset = offset ∧ act = Bridge.deliver connection k c ∧ op = c.operation connection k := by
  cases h with
  | complete bytes => exact ⟨.data offset bytes, rfl, rfl, rfl⟩
  | fail status => exact ⟨.failure offset status, rfl, rfl, rfl⟩
  | deliver c hc => exact ⟨c, hc, rfl, rfl⟩

end Bridge

end OnDemand
