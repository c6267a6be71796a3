import OnDemand.Proofs.Bridge.Response
import OnDemand.Proofs.Hydration.Plan

/-!
# Whether a reader is left waiting

An answer is a list of exchanges with the bridge; the rest of the program may do anything between any two. The reader is
settled if it got all that it is owed, or the facility was told of a failure, or the key was stale. The one way to leave
it unsettled is a data segment that is refused for another reason.
-/

namespace OnDemand

/-- A completion that was sent, whether the facility was asked about it, and the refusal that came back, if one did. -/
structure Exchange where
  completion : Completion
  asked : Bool
  refusal : Option TransferError
deriving DecidableEq

namespace Exchange

def isAccepted (x : Exchange) : Bool := x.refusal.isNone

/-- Refused because the key refers to nothing live. -/
def isStale (x : Exchange) : Bool := x.refusal.any TransferError.isStale

/-- Refused for any other reason. -/
def isRejected (x : Exchange) : Bool := x.refusal.any fun e => !e.isStale

/-- The completion is a failure, which ends the transfer. -/
def isTerminal (x : Exchange) : Bool :=
  match x.completion with
  | .data _ _ => false
  | .failure _ _ => true

variable {x : Exchange}

theorem isAccepted_or (x : Exchange) : x.isAccepted = true ∨ x.isStale = true ∨ x.isRejected = true := by
  unfold isAccepted isStale isRejected
  cases x.refusal with
  | none => exact .inl rfl
  | some e => cases h : e.isStale <;> simp [h]

theorem not_isAccepted_of_isStale (h : x.isStale = true) : x.isAccepted = false := by
  unfold isStale at h
  unfold isAccepted
  cases hx : x.refusal <;> simp_all

theorem not_isAccepted_of_isRejected (h : x.isRejected = true) : x.isAccepted = false := by
  unfold isRejected at h
  unfold isAccepted
  cases hx : x.refusal <;> simp_all

theorem not_isStale_of_isRejected (h : x.isRejected = true) : x.isStale = false := by
  unfold isRejected at h
  unfold isStale
  cases hx : x.refusal <;> simp_all

end Exchange

namespace Answer

variable {σ : Type} [CloudFacility σ] {others : Nat → Bridge σ → Bridge σ} {r : Request} {plan : List Completion}
  {b : Bridge σ} {x : Exchange} {xs : List Exchange}

def exchange (r : Request) (c : Completion) (b : Bridge σ) : Exchange where
  completion := c
  asked := b.asks r.connection c
  refusal :=
    match (b.deliver r.connection r.transfer c).1 with
    | .ok _ => none
    | .error e => some e

/-- What `send` does, with every answer kept. Before each completion the rest of the program has acted on the bridge:
`others n` is what it did when `n` more completions were left. -/
def exchanges (others : Nat → Bridge σ → Bridge σ) (r : Request) : List Completion → Bridge σ → List Exchange
  | [], _ => []
  | c :: rest, b =>
    let b := others rest.length b
    let x := exchange r c b
    x :: if x.isAccepted then exchanges others r rest (b.deliver r.connection r.transfer c).2 else []

/-! ## The shape of an answer -/

/-- With nothing in between, the exchanges are those of `send`. -/
theorem send_eq_all (r : Request) (plan : List Completion) (b : Bridge σ) :
    (send r plan b).1 = (exchanges (fun _ b => b) r plan b).all Exchange.isAccepted := by
  induction plan generalizing b with
  | nil => rfl
  | cons c rest ih =>
    cases h : b.deliver r.connection r.transfer c with
    | mk answer b' =>
      cases answer <;> simp [send, exchanges, exchange, Exchange.isAccepted, h, ih]

/-- All of a plan was accepted, or what came before the first refusal. -/
theorem exchanges_cases (others : Nat → Bridge σ → Bridge σ) (r : Request) (plan : List Completion) (b : Bridge σ) :
    ((exchanges others r plan b).map Exchange.completion = plan ∧
      ∀ x ∈ exchanges others r plan b, x.isAccepted = true) ∨
    ∃ before x rest, exchanges others r plan b = before ++ [x] ∧ (∀ y ∈ before, y.isAccepted = true) ∧
      x.isAccepted = false ∧ plan = before.map Exchange.completion ++ x.completion :: rest := by
  induction plan generalizing b with
  | nil => exact .inl ⟨rfl, nofun⟩
  | cons c rest ih =>
    simp only [exchanges]
    cases hx : (exchange r c (others rest.length b)).isAccepted with
    | false => exact .inr ⟨[], _, rest, by simp, nofun, hx, rfl⟩
    | true =>
      rcases ih ((others rest.length b).deliver r.connection r.transfer c).2 with
        ⟨hmap, hall⟩ | ⟨before, x, after, hxs, hall, hno, hplan⟩
      · exact .inl ⟨by simpa [exchange] using hmap, by simpa [hx] using hall⟩
      · refine .inr ⟨exchange r c (others rest.length b) :: before, x, after, by simp [hxs], ?_, hno, ?_⟩
        · simpa [hx] using hall
        · simpa [exchange] using hplan

theorem exists_before_of_refused (hx : x ∈ exchanges others r plan b) (hno : x.isAccepted = false) :
    ∃ before rest, exchanges others r plan b = before ++ [x] ∧ (∀ y ∈ before, y.isAccepted = true) ∧
      plan = before.map Exchange.completion ++ x.completion :: rest := by
  rcases exchanges_cases others r plan b with ⟨-, hall⟩ | ⟨before, y, rest, hxs, hall, -, hplan⟩
  · rw [hall x hx] at hno
    cases hno
  · have hxy : x = y := by
      rw [hxs] at hx
      rcases List.mem_append.1 hx with hb | hy
      · rw [hall x hb] at hno
        cases hno
      · exact List.mem_singleton.1 hy
    subst hxy
    exact ⟨before, rest, hxs, hall, hplan⟩

theorem exists_exchange (hx : x ∈ exchanges others r plan b) : ∃ c b', x = exchange r c (b' : Bridge σ) := by
  induction plan generalizing b with
  | nil => cases hx
  | cons c rest ih =>
    simp only [exchanges, List.mem_cons] at hx
    rcases hx with rfl | hx
    · exact ⟨c, _, rfl⟩
    · split at hx
      · exact ih hx
      · cases hx

theorem asked_of_isAccepted (hx : x ∈ exchanges others r plan b) (h : x.isAccepted = true) : x.asked = true := by
  obtain ⟨c, b', rfl⟩ := exists_exchange hx
  refine Bridge.asked_of_deliver_ok (k := r.transfer) ?_
  cases ha : (b'.deliver r.connection r.transfer c).1 with
  | ok _ => rfl
  | error e => simp [Exchange.isAccepted, exchange, ha] at h

theorem beyond_of_isRejected (hx : x ∈ exchanges others r plan b) (h : x.isRejected = true) (hasked : x.asked = false) :
    Word.fitsSigned x.completion.offset = false := by
  obtain ⟨c, b', rfl⟩ := exists_exchange hx
  cases hfits : Word.fitsSigned c.offset with
  | false => exact hfits
  | true =>
    have hclosed : b'.live.isClosed r.connection = true := by simpa [exchange, Bridge.asks, hfits] using hasked
    simp [Exchange.isRejected, exchange, Bridge.deliver_closed hfits hclosed, TransferError.isStale] at h

/-! ## The shape of a plan -/

variable {chunk : Nat}

theorem exists_data_of_mem_segments {offset : Nat} {bytes : Bytes} {c : Completion}
    (hc : c ∈ segments chunk offset bytes) : ∃ start piece, c = .data start piece := by
  fun_induction segments chunk offset bytes with
  | case1 => cases hc
  | case2 offset bytes h ih =>
    rcases List.mem_cons.1 hc with rfl | hc
    · exact ⟨_, _, rfl⟩
    · exact ih hc

theorem exists_covers_before {offset start : Nat} {bytes piece : Bytes} {before rest : List Completion}
    (h : segments chunk offset bytes = before ++ .data start piece :: rest) {i : Nat} (hlo : offset ≤ i)
    (hhi : i < start) : ∃ c ∈ before, c.Covers i := by
  fun_induction segments chunk offset bytes generalizing before with
  | case1 => simp at h
  | case2 offset bytes hne ih =>
    cases before with
    | nil =>
      obtain ⟨hfirst, -⟩ := List.cons.inj h
      obtain ⟨rfl, -⟩ := Completion.data.inj hfirst
      omega
    | cons d before =>
      obtain ⟨rfl, hrest⟩ := List.cons.inj h
      by_cases hi : i < offset + (bytes.take chunk).length
      · exact ⟨_, List.mem_cons_self, hlo, hi⟩
      · rw [List.length_take] at hi
        by_cases hlong : chunk ≤ bytes.length
        · obtain ⟨c, hc, hcovers⟩ := ih hrest (by omega)
          exact ⟨c, List.mem_cons_of_mem _ hc, hcovers⟩
        · rw [List.drop_of_length_le (by omega), segments_nil] at hrest
          simp at hrest

/-- A plan is segments up to some point, and a failure at that point unless everything owed comes before it. -/
theorem plan_shape (chunk : Nat) (r : Request) (fetched : Fetched) :
    ∃ bytes tail, Answer.plan chunk r fetched = segments chunk r.offset bytes ++ tail ∧
      ((tail = [] ∧ r.owedStop ≤ r.offset + bytes.length) ∨
        ∃ status, tail = [.failure (r.offset + bytes.length) status] ∧
          (bytes = [] ∨ r.offset + bytes.length < r.owedStop)) := by
  refine ⟨wanted r fetched, _, plan_eq chunk r fetched, ?_⟩
  split <;> rename_i hshort
  · exact .inr ⟨fetched.failure, rfl, hshort.imp_left fun h => by rw [wanted, h, List.take_nil]⟩
  · exact .inl ⟨rfl, Nat.le_of_not_lt fun hlt => hshort (.inr hlt)⟩

theorem plan_eq_append {fetched : Fetched} {before rest : List Completion} {c : Completion}
    (h : Answer.plan chunk r fetched = before ++ c :: rest) :
    (∃ bytes after, segments chunk r.offset bytes = before ++ c :: after) ∨
      ∃ bytes status, before = segments chunk r.offset bytes ∧ c = .failure (r.offset + bytes.length) status ∧
        (bytes = [] ∨ r.offset + bytes.length < r.owedStop) := by
  obtain ⟨bytes, tail, hplan, htail⟩ := plan_shape chunk r fetched
  rcases List.append_eq_append_iff.1 (hplan.symm.trans h) with ⟨after, hbefore, htail'⟩ | ⟨after, hsegments, hrest⟩
  · rcases htail with ⟨rfl, -⟩ | ⟨status, rfl, hshort⟩
    · simp at htail'
    · cases after with
      | nil => exact .inr ⟨bytes, status, by simpa using hbefore, (List.cons.inj htail').1.symm, hshort⟩
      | cons d after => simp at htail'
  · cases after with
    | nil =>
      rcases htail with ⟨rfl, -⟩ | ⟨status, rfl, hshort⟩
      · simp at hrest
      · exact .inr ⟨bytes, status, by simpa using hsegments.symm, (List.cons.inj hrest).1, hshort⟩
    | cons d after =>
      obtain ⟨rfl, -⟩ := List.cons.inj hrest
      exact .inl ⟨bytes, after, hsegments⟩

theorem exists_data_of_mem_before {fetched : Fetched} {before rest : List Completion} {c d : Completion}
    (h : Answer.plan chunk r fetched = before ++ c :: rest) (hd : d ∈ before) :
    ∃ start piece, d = .data start piece := by
  rcases plan_eq_append h with ⟨bytes, after, hsegments⟩ | ⟨bytes, status, rfl, -, -⟩
  · exact exists_data_of_mem_segments (hsegments ▸ List.mem_append_left _ hd)
  · exact exists_data_of_mem_segments hd

/-! ## Settled readers -/

/-- The facility has accepted every byte that `r` is owed. -/
def Satisfied (r : Request) (xs : List Exchange) : Prop :=
  ∀ i, r.offset ≤ i → i < r.owedStop → ∃ x ∈ xs, x.isAccepted = true ∧ x.completion.Covers i

/-- Nobody goes on waiting for the answer to `r`: it was given in full, or a failure was put to the facility, or the key
was reported stale. -/
inductive Settled (r : Request) (xs : List Exchange) : Prop where
  | satisfied (h : Satisfied r xs)
  | failed {x : Exchange} (hx : x ∈ xs) (hasked : x.asked = true) (hterminal : x.isTerminal = true)
  | stale {x : Exchange} (hx : x ∈ xs) (hstale : x.isStale = true)

variable {fetched : Fetched}

theorem settled_of_rejected (hchunk : 0 < chunk)
    (h : ∀ x ∈ exchanges others r (Answer.plan chunk r fetched) b,
      x.isRejected = true → x.asked = true ∧ x.isTerminal = true) :
    Settled r (exchanges others r (Answer.plan chunk r fetched) b) := by
  rcases exchanges_cases others r (Answer.plan chunk r fetched) b with ⟨hmap, hall⟩ | ⟨before, x, rest, hxs, -, hno, -⟩
  · obtain ⟨bytes, tail, hplan, htail⟩ := plan_shape chunk r fetched
    have hsent {c : Completion} (hc : c ∈ segments chunk r.offset bytes ++ tail) :
        ∃ x ∈ exchanges others r (Answer.plan chunk r fetched) b, x.completion = c := by
      rw [← hplan, ← hmap] at hc
      exact List.mem_map.1 hc
    rcases htail with ⟨rfl, hlong⟩ | ⟨status, rfl, -⟩
    · refine .satisfied fun i hlo hhi => ?_
      obtain ⟨c, hc, hcovers⟩ := exists_covers_segments hchunk hlo (Nat.lt_of_lt_of_le hhi hlong)
      obtain ⟨x, hx, rfl⟩ := hsent (List.mem_append_left _ hc)
      exact ⟨x, hx, hall x hx, hcovers⟩
    · obtain ⟨x, hx, hcompletion⟩ := hsent (List.mem_append_right _ List.mem_cons_self)
      exact .failed hx (asked_of_isAccepted hx (hall x hx)) (by simp [Exchange.isTerminal, hcompletion])
  · have hx : x ∈ exchanges others r (Answer.plan chunk r fetched) b := by simp [hxs]
    rcases x.isAccepted_or with hyes | hstale | hrejected
    · rw [hno] at hyes
      cases hyes
    · exact .stale hx hstale
    · obtain ⟨hasked, hterminal⟩ := h x hx hrejected
      exact .failed hx hasked hterminal

theorem satisfied_of_settled (hs : Settled r (exchanges others r (Answer.plan chunk r fetched) b))
    (hx : x ∈ exchanges others r (Answer.plan chunk r fetched) b) (hrejected : x.isRejected = true)
    (h : ¬(x.asked = true ∧ x.isTerminal = true)) :
    Satisfied r (exchanges others r (Answer.plan chunk r fetched) b) := by
  have hno := Exchange.not_isAccepted_of_isRejected hrejected
  obtain ⟨before, rest, hxs, hall, hplan⟩ := exists_before_of_refused hx hno
  -- Only what came before the rejection can be a failure, and nothing follows a failure in a plan.
  have hlast {z : Exchange} (hz : z ∈ exchanges others r (Answer.plan chunk r fetched) b) : z ∈ before ∨ z = x := by
    rw [hxs] at hz
    simpa using hz
  cases hs with
  | satisfied hs => exact hs
  | @failed z hz hasked hterminal =>
    rcases hlast hz with hb | rfl
    · obtain ⟨start, piece, hdata⟩ := exists_data_of_mem_before hplan (List.mem_map_of_mem hb)
      simp [Exchange.isTerminal, hdata] at hterminal
    · exact absurd ⟨hasked, hterminal⟩ h
  | @stale z hz hstale =>
    rcases hlast hz with hb | rfl
    · exact absurd (hall z hb) (by simp [Exchange.not_isAccepted_of_isStale hstale])
    · rw [Exchange.not_isStale_of_isRejected hrejected] at hstale
      cases hstale

theorem owedStop_le {bound : Nat} (hoffset : r.offset ≤ bound) (hsize : r.fileSize ≤ bound) : r.owedStop ≤ bound := by
  simp only [Request.owedStop]
  omega

/-- For a request of a callback, what never reaches the facility comes after everything that is owed. -/
theorem satisfied_of_not_asked (hoffset : (r.offset : Int) ≤ Word.maxSigned)
    (hsize : (r.fileSize : Int) ≤ Word.maxSigned)
    (hx : x ∈ exchanges others r (Answer.plan chunk r fetched) b) (hrejected : x.isRejected = true)
    (hasked : x.asked = false) : Satisfied r (exchanges others r (Answer.plan chunk r fetched) b) := by
  have hbeyond : Word.maxSigned < (x.completion.offset : Int) := by
    refine Int.not_le.1 fun hle => ?_
    rw [← fitsSigned_natCast, beyond_of_isRejected hx hrejected hasked] at hle
    cases hle
  have howed : (r.owedStop : Int) ≤ Word.maxSigned := by
    have hle : r.owedStop ≤ Word.maxSigned.toNat := owedStop_le (by omega) (by omega)
    simp only [Word.maxSigned] at hle ⊢
    omega
  have hno := Exchange.not_isAccepted_of_isRejected hrejected
  obtain ⟨before, rest, hxs, hall, hplan⟩ := exists_before_of_refused hx hno
  rcases plan_eq_append hplan with ⟨bytes, after, hsegments⟩ | ⟨bytes, status, -, hfailure, hshort⟩
  · intro i hlo hhi
    obtain ⟨start, piece, hdata⟩ : ∃ start piece, x.completion = .data start piece :=
      exists_data_of_mem_segments (hsegments ▸ List.mem_append_right _ List.mem_cons_self)
    rw [hdata] at hsegments hbeyond
    simp only [Completion.offset] at hbeyond
    obtain ⟨c, hc, hcovers⟩ := exists_covers_before hsegments hlo (by omega)
    obtain ⟨z, hz, rfl⟩ := List.mem_map.1 hc
    exact ⟨z, by simp [hxs, hz], hall z hz, hcovers⟩
  · rw [hfailure] at hbeyond
    simp only [Completion.offset] at hbeyond
    rcases hshort with rfl | hshort
    · simp at hbeyond
      omega
    · omega

/-- What comes of `r` when the source has returned `fetched` and segments are to be `size` bytes long. -/
def course (others : Nat → Bridge σ → Bridge σ) (size : Nat) (r : Request) (fetched : Fetched) (b : Bridge σ) :
    List Exchange :=
  exchanges others r (Answer.plan (alignedChunk size) r fetched) b

/-- A reader is left waiting exactly if something is refused for another reason than a stale key, before everything that
is owed has been accepted, and it is a data segment or has an offset that no facility is asked about. For a request of a
callback it is a data segment that the facility refuses. -/
theorem settled_iff (others : Nat → Bridge σ → Bridge σ) (size : Nat) (r : Request) (fetched : Fetched) (b : Bridge σ) :
    (Settled r (course others size r fetched b) ↔
      Satisfied r (course others size r fetched b) ∨
        ∀ x ∈ course others size r fetched b, x.isRejected = true → x.asked = true ∧ x.isTerminal = true) ∧
    ((r.offset : Int) ≤ Word.maxSigned → (r.fileSize : Int) ≤ Word.maxSigned →
      (Settled r (course others size r fetched b) ↔
        Satisfied r (course others size r fetched b) ∨
          ∀ x ∈ course others size r fetched b, x.isRejected = true → x.asked = true → x.isTerminal = true)) := by
  have hiff : Settled r (course others size r fetched b) ↔ Satisfied r (course others size r fetched b) ∨
      ∀ x ∈ course others size r fetched b, x.isRejected = true → x.asked = true ∧ x.isTerminal = true := by
    constructor
    · intro hs
      refine Classical.or_iff_not_imp_right.2 fun hall => ?_
      simp only [Classical.not_forall] at hall
      obtain ⟨x, hx, hrejected, h⟩ := hall
      exact satisfied_of_settled hs hx hrejected h
    · rintro (hs | hall)
      · exact .satisfied hs
      · exact settled_of_rejected (alignedChunk_pos size) hall
  refine ⟨hiff, fun hoffset hsize => hiff.trans ⟨?_, ?_⟩⟩
  · exact Or.imp_right fun hall x hx hrejected _ => (hall x hx hrejected).2
  · rintro (hs | hall)
    · exact .inl hs
    · refine Classical.or_iff_not_imp_left.2 fun hunsatisfied x hx hrejected => ?_
      cases hasked : x.asked with
      | true => exact ⟨rfl, hall x hx hrejected hasked⟩
      | false => exact absurd (satisfied_of_not_asked hoffset hsize hx hrejected hasked) hunsatisfied

/-- The transfer 1 of a file of two bytes has been opened, and the next transfer operation is to be refused. -/
def refusing : Facility :=
  Facility.after [.register ⟨"/r"⟩ (.new "r" "1"), .connect ⟨"/r"⟩ none,
    .create ⟨"/r"⟩ (.of "a" (.ofText "o") 2 0 false), .begin ⟨"/r/a"⟩, .planFault .transfer .failure]

def wholeFile : Request := ⟨⟨0x1001⟩, ⟨1⟩, .ofText "o", 0, 2, 2, none⟩

/-- One refusal of the only segment: no byte is accepted, no failure is sent, the key is not stale, and the transfer
stays pending. -/
theorem refused_segment_leaves_reader_waiting :
    ¬Settled wholeFile (course (fun _ b => b) 4096 wholeFile (.data [1, 2]) ⟨refusing, .empty⟩) ∧
      (serve (alignedChunk 4096) wholeFile (.data [1, 2]) (⟨refusing, .empty⟩ : Bridge Facility)).1 = .abandoned ∧
      ((serve (alignedChunk 4096) wholeFile (.data [1, 2])
        (⟨refusing, .empty⟩ : Bridge Facility)).2.facility.transfers.get? ⟨1⟩).map Transfer.phase = some .pending := by
  have hcourse : course (fun _ b => b) 4096 wholeFile (.data [1, 2]) (⟨refusing, .empty⟩ : Bridge Facility) =
      [⟨.data 0 [1, 2], true, some (.rejected ⟨0x1001⟩ ⟨1⟩ .failure)⟩] := by
    decide +kernel
  refine ⟨?_, by decide +kernel, by decide +kernel⟩
  rw [hcourse]
  rintro (h | ⟨hx, -, hterminal⟩ | ⟨hx, hstale⟩)
  · obtain ⟨x, hx, haccepted, -⟩ := h 0 (Nat.zero_le 0) (by decide)
    obtain rfl := List.mem_singleton.1 hx
    cases haccepted
  · obtain rfl := List.mem_singleton.1 hx
    cases hterminal
  · obtain rfl := List.mem_singleton.1 hx
    cases hstale

end Answer

end OnDemand
