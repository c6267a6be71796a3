import OnDemand.Proofs.Hydration.Delivery
import OnDemand.Proofs.Hydration.Tiling

/-!
# What is sent and what is owed

A request owes the requested range, as far as the file goes. What is sent for it is cut off at the requested length
only: a source that has more than the file makes segments reach beyond it, and a transfer takes no such segment. A
source that has nothing is taken for one that failed, even if nothing is owed.
-/

namespace OnDemand

/-- What the store returns for part of an object that it has: the bytes that the object has there. -/
theorem ObjectStore.Holds.fetched {store : ObjectStore} {object : String} {content : Bytes} {r : Request}
    (h : store.Holds object content) (hidentity : r.identity.text? = some object)
    (hcontent : content.length ≤ Word.maxUnsigned) : store.fetched r = .data (content.window r.offset r.length) := by
  rw [ObjectStore.fetched, h.contentRange hidentity (.inr hcontent)]

namespace Answer

section

variable {σ : Type} [CloudFacility σ] {r : Request} {fetched : Fetched} {chunk : Nat} {b : Bridge σ}

/-! ## Data beyond what is owed -/

theorem exists_covers_sent {xs : List Exchange} {segs ending : List Completion} {taken : Bytes}
    (hsent : xs.map Exchange.completion = segs ++ ending) (htiles : Tiles chunk r.offset taken segs)
    (hending : ∀ c ∈ ending, ∀ i, ¬c.Covers i) (i : Nat) :
    (∃ x ∈ xs, x.completion.Covers i) ↔ r.offset ≤ i ∧ i < r.offset + taken.length := by
  have hmem : (∃ x ∈ xs, x.completion.Covers i) ↔ ∃ c ∈ segs ++ ending, c.Covers i := by
    rw [← hsent]
    simp
  rw [hmem, ← htiles.exists_covers_iff]
  constructor
  · rintro ⟨c, hc, hcovers⟩
    exact ⟨c, (List.mem_append.1 hc).resolve_right fun h => hending c h i hcovers, hcovers⟩
  · rintro ⟨c, hc, hcovers⟩
    exact ⟨c, List.mem_append_left _ hc, hcovers⟩

theorem forall_covers_iff {xs : List Exchange} {offset length stop : Nat} (hle : offset ≤ stop)
    (h : ∀ i, (∃ x ∈ xs, x.completion.Covers i) ↔ offset ≤ i ∧ i < offset + length) :
    (∀ x ∈ xs, ∀ i, x.completion.Covers i → offset ≤ i ∧ i < stop) ↔ offset + length ≤ stop := by
  constructor
  · intro hall
    refine Nat.not_lt.1 fun hlt => ?_
    obtain ⟨x, hx, hcovers⟩ := (h stop).2 ⟨hle, hlt⟩
    exact Nat.lt_irrefl _ (hall x hx _ hcovers).2
  · intro hstop x hx i hi
    have hi := (h i).1 ⟨x, hx, hi⟩
    omega

/-- Nothing is sent beyond what is owed exactly if the wanted bytes end there, or sending stopped before. -/
theorem within_owed_iff (others : Nat → Bridge σ → Bridge σ) (size : Nat) (r : Request) (fetched : Fetched)
    (b : Bridge σ) :
    (∀ x ∈ course others size r fetched b, ∀ i, x.completion.Covers i → r.offset ≤ i ∧ i < r.owedStop) ↔
      wantedStop r fetched ≤ r.owedStop ∨
        ∃ x ∈ course others size r fetched b, x.isAccepted = false ∧
          ∃ start piece, x.completion = .data start piece ∧ start + piece.length ≤ r.owedStop := by
  obtain ⟨taken, segs, ending, hsent, htiles, hprefix, hending, hall⟩ :=
    exists_taken (alignedChunk_pos size) others r fetched b
  have hfailure : ∀ c ∈ ending, ∀ i, ¬c.Covers i := by
    rcases hending with rfl | ⟨-, rfl⟩ <;> simp [Completion.Covers]
  have howed : r.offset ≤ r.owedStop := Nat.le_max_right ..
  have hcovers (i : Nat) : (∃ x ∈ course others size r fetched b, x.completion.Covers i) ↔ _ :=
    exists_covers_sent hsent htiles hfailure i
  rw [forall_covers_iff howed hcovers]
  constructor
  · intro hle
    by_cases haccepted : ∀ x ∈ course others size r fetched b, x.isAccepted = true
    · obtain ⟨rfl, -⟩ := hall haccepted
      exact .inl hle
    · simp only [Classical.not_forall, Bool.not_eq_true] at haccepted
      obtain ⟨x, hx, hno⟩ := haccepted
      rcases List.mem_append.1 (hsent ▸ List.mem_map_of_mem hx : x.completion ∈ segs ++ ending) with h | h
      · obtain ⟨start, piece, hdata, hstop⟩ := htiles.exists_data h
        exact .inr ⟨x, hx, hno, start, piece, hdata, Nat.le_trans hstop hle⟩
      · rcases hending with rfl | ⟨rfl, -⟩
        · cases h
        · exact .inl hle
  · rintro (hle | ⟨x, hx, hno, start, piece, hdata, hle⟩)
    · exact Nat.le_trans (Nat.add_le_add_left hprefix.length_le _) hle
    · -- What is refused is the last that was sent.
      obtain ⟨before, rest, hxs, -, -⟩ := exists_before_of_refused hx hno
      rw [hxs, List.map_append, List.map_singleton, hdata] at hsent
      rcases hending with rfl | ⟨-, rfl⟩
      · rw [List.append_nil] at hsent
        rw [← hsent] at htiles
        rwa [← htiles.stop_of_concat]
      · cases (List.append_inj' hsent rfl).2

/-- From a store that has the object, the wanted bytes end beyond what is owed exactly if the request reaches beyond the
file and the object has bytes there. -/
theorem wantedStop_fetched_le_iff {store : ObjectStore} {object : String} {content : Bytes}
    (h : store.Holds object content) (hidentity : r.identity.text? = some object)
    (hcontent : content.length ≤ Word.maxUnsigned) :
    wantedStop r (store.fetched r) ≤ r.owedStop ↔
      content.length ≤ r.fileSize ∨ r.offset + r.length ≤ r.fileSize ∨ content.length ≤ r.offset ∨ r.length = 0 := by
  rw [h.fetched hidentity hcontent, wantedStop, wanted, Fetched.bytes, List.length_take, Bytes.length_window]
  simp only [Request.owedStop, Request.stop, Word.addCapped]
  omega

/-! ## How an answer ends -/

theorem endsInFailure_plan (hchunk : 0 < chunk) (r : Request) (fetched : Fetched) :
    endsInFailure (Answer.plan chunk r fetched) = true ↔ FallsShort r fetched := by
  rw [plan_eq]
  split <;> rename_i hshort
  · simp [endsInFailure, hshort]
  · simp only [List.append_nil, hshort, iff_false, Bool.not_eq_true, endsInFailure]
    split
    · rename_i hlast
      obtain ⟨_, _, hdata, -⟩ :=
        (tiles_segments hchunk r.offset (wanted r fetched)).exists_data (List.mem_of_getLast? hlast)
      cases hdata
    · rfl

theorem serve_answered_iff (hchunk : 0 < chunk) (r : Request) (fetched : Fetched) (b : Bridge σ) :
    (serve chunk r fetched b).1 = .answered ↔
      (send r (Answer.plan chunk r fetched) b).1 = true ∧ ¬FallsShort r fetched := by
  rw [← endsInFailure_plan hchunk]
  unfold serve run
  split <;> rename_i hsend <;> simp [hsend]

end

/-! ## A transfer that collects -/

open Delivery (Ready)

section

variable {connection : ConnectionKey} {k : TransferKey} {t : Transfer} {b : Bridge Facility} {r : Request}
  {chunk offset : Nat} {bytes : Bytes}

/-- `t` is the transfer `k`, which takes data on `connection`. -/
structure Collecting (connection : ConnectionKey) (k : TransferKey) (t : Transfer) (b : Bridge Facility) : Prop
    extends Ready connection b where
  transfer : b.facility.transfers.get? k = some t
  connection_eq : t.connection = connection
  pending : t.isPending = true
  canonical : t.received.Canonical t.length

/-- What becomes of the transfer `k` when `t` is what it has received. -/
inductive Took (connection : ConnectionKey) (k : TransferKey) (t : Transfer) (b : Bridge Facility) : Prop where
  | whole (hcomplete : t.isComplete = true)
      (hphase : (b.facility.transfers.get? k).map Transfer.phase = some .completed)
  | part (hincomplete : t.isComplete = false) (h : Collecting connection k t b)

theorem exists_pending_of_ok (h : (b.deliver connection k (.data offset bytes)).1 = .ok ()) :
    ∃ t, b.facility.transfers.get? k = some t ∧ t.isPending = true ∧ offset + bytes.length ≤ t.length := by
  rw [Bridge.deliver_executed (Bridge.asked_of_deliver_ok h)] at h
  rcases Facility.execute_cases ((Completion.data offset bytes).operation connection k) b.facility with
    ⟨s, he⟩ | ⟨t, -, ht, ⟨hs, -⟩ | ⟨data, hd, -⟩⟩
  · rw [he] at h
    cases h
  · cases hs
  · obtain rfl := Option.some.inj hd.buffer
    exact ⟨t, ht.transfer, ht.pending, hd.fits⟩

theorem Collecting.deliver (h : Collecting connection k t b) (hlength : (t.length : Int) ≤ Word.maxSigned)
    (hfits : offset + bytes.length ≤ t.length) :
    ∃ b', b.deliver connection k (.data offset bytes) = (.ok (), b') ∧
      Took connection k (t.receive offset bytes) b' := by
  have hawaits : b.facility.Awaits (.data connection k bytes offset) t :=
    ⟨h.isOpen, h.transfer, h.connection_eq, h.pending⟩
  have hcarries : Facility.Carries (.data connection k bytes offset) bytes t :=
    ⟨rfl, rfl, Int.natCast_nonneg offset, rfl, hfits⟩
  rw [Delivery.deliver_data h.live (by omega), Facility.execute_data h.clear hawaits hcarries]
  refine ⟨_, rfl, ?_⟩
  have hget := Delivery.get?_store_logged b.facility k (.data connection k bytes offset) (t.receive offset bytes)
  cases hcomplete : (t.receive offset bytes).isComplete with
  | true =>
    rw [if_pos hcomplete] at hget
    exact .whole hcomplete (congrArg (Option.map Transfer.phase) hget)
  | false =>
    rw [if_neg (by simp [hcomplete])] at hget
    exact .part hcomplete ⟨h.toReady.facility Facility.store_connections Facility.store_faults, hget, h.connection_eq,
      h.pending, Transfer.canonical_receive h.canonical hfits⟩

theorem not_ok_of_completed (h : (b.facility.transfers.get? k).map Transfer.phase = some .completed) :
    (b.deliver connection k (.data offset bytes)).1 ≠ .ok () := by
  intro hok
  obtain ⟨t, ht, hpending, -⟩ := exists_pending_of_ok hok
  rw [ht] at h
  simp_all [Transfer.isPending]

theorem Collecting.fits_of_ok (h : Collecting connection k t b)
    (hok : (b.deliver connection k (.data offset bytes)).1 = .ok ()) : offset + bytes.length ≤ t.length := by
  obtain ⟨u, hu, -, hfits⟩ := exists_pending_of_ok hok
  rwa [Option.some.inj (h.transfer.symm.trans hu)]

theorem deliver_ok_of_send {σ : Type} [CloudFacility σ] {b : Bridge σ} {c : Completion} {rest : List Completion}
    (h : (send r (c :: rest) b).1 = true) : (b.deliver r.connection r.transfer c).1 = .ok () := by
  unfold send at h
  split at h <;> simp_all

/-- A transfer that has completed takes no more segments. -/
theorem segments_eq_nil_of_send (h : (b.facility.transfers.get? r.transfer).map Transfer.phase = some .completed)
    (hsend : (send r (segments chunk offset bytes) b).1 = true) : segments chunk offset bytes = [] := by
  cases hcs : segments chunk offset bytes with
  | nil => rfl
  | cons c rest =>
    obtain ⟨start, piece, rfl⟩ := exists_data_of_mem_segments (hcs ▸ List.mem_cons_self : c ∈ segments ..)
    rw [hcs] at hsend
    exact absurd (deliver_ok_of_send hsend) (not_ok_of_completed h)

/-- Segments are all accepted exactly if they lie within the transfer, and something that is missing is in none but the
last of them. -/
theorem send_segments_iff (h : Collecting r.connection r.transfer t b) (hincomplete : t.isComplete = false)
    (hlength : (t.length : Int) ≤ Word.maxSigned) (hchunk : 0 < chunk) (offset : Nat) (hne : bytes ≠ []) :
    (send r (segments chunk offset bytes) b).1 = true ↔
      offset + bytes.length ≤ t.length ∧
        ∃ i < t.length, ¬t.received.covers i ∧ (i < offset ∨ offset + (bytes.length - 1) / chunk * chunk ≤ i) := by
  fun_induction segments chunk offset bytes generalizing t b with
  | case1 offset bytes hnone => exact absurd hnone (by simp [hne, Nat.ne_of_gt hchunk])
  | case2 offset bytes hsome ih =>
    have hpos : 0 < bytes.length := List.length_pos_iff.2 hne
    have htake : (bytes.take chunk).length = min chunk bytes.length := List.length_take
    by_cases hfits : offset + (bytes.take chunk).length ≤ t.length
    · obtain ⟨b', hdeliver, htook⟩ := h.deliver hlength hfits
      simp only [send, hdeliver]
      by_cases hshort : bytes.length ≤ chunk
      · -- This segment is the last: any missing byte will do, and there is one.
        obtain ⟨i, hi, hmissing⟩ : ∃ i < t.length, ¬t.received.covers i := by
          simpa using mt (Coverage.isComplete_iff h.canonical).2 (Bool.eq_false_iff.1 hincomplete)
        rw [List.drop_of_length_le hshort, segments_nil, Nat.div_eq_of_lt (by omega)]
        simp only [send, true_iff]
        exact ⟨by omega, i, hi, hmissing, by omega⟩
      · have hdrop : bytes.drop chunk ≠ [] := by simpa using hshort
        have hlast : (bytes.length - 1) / chunk * chunk = ((bytes.drop chunk).length - 1) / chunk * chunk + chunk := by
          rw [List.length_drop, Nat.div_eq_sub_div hchunk (by omega), Nat.succ_mul, Nat.sub_right_comm]
        have hcovers (i : Nat) : (t.receive offset (bytes.take chunk)).received.covers i ↔ _ :=
          Transfer.covers_receive h.canonical i
        rw [hlast]
        cases htook with
        | whole hcomplete hphase =>
          refine iff_of_false (fun hsend => ?_) ?_
          · have hnil := segments_eq_nil_of_send hphase hsend
            rw [segments_cons hchunk _ hdrop] at hnil
            cases hnil
          · rintro ⟨-, i, hi, hmissing, hin⟩
            have hcover := ((hcovers i).1 (Coverage.covers_of_isComplete hcomplete hi)).resolve_right hmissing
            omega
        | part hincomplete hnext =>
          rw [ih hnext hincomplete hlength hdrop, List.length_drop]
          refine and_congr (by simp only [Transfer.receive]; omega) (exists_congr fun i => and_congr_right fun hi => ?_)
          rw [hcovers, not_or]
          constructor
          · rintro ⟨⟨hout, hmissing⟩, hin⟩
            exact ⟨hmissing, by omega⟩
          · rintro ⟨hmissing, hin⟩
            exact ⟨⟨by omega, hmissing⟩, by omega⟩
    · exact iff_of_false (fun hsend => hfits (h.fits_of_ok (deliver_ok_of_send hsend))) (by omega)

theorem completed_of_send (h : Collecting r.connection r.transfer t b) (hincomplete : t.isComplete = false)
    (hlength : (t.length : Int) ≤ Word.maxSigned) (hchunk : 0 < chunk) (offset : Nat)
    (hall : ∀ i < t.length, t.received.covers i ∨ offset ≤ i ∧ i < offset + bytes.length)
    (hsend : (send r (segments chunk offset bytes) b).1 = true) :
    ((send r (segments chunk offset bytes) b).2.facility.transfers.get? r.transfer).map Transfer.phase =
      some .completed := by
  fun_induction segments chunk offset bytes generalizing t b with
  | case1 offset bytes hnone =>
    obtain rfl : bytes = [] := hnone.resolve_left (Nat.ne_of_gt hchunk)
    refine absurd (Coverage.isComplete_of_covers h.canonical fun i hi => ?_) (Bool.eq_false_iff.1 hincomplete)
    exact (hall i hi).resolve_right (by simp)
  | case2 offset bytes hsome ih =>
    obtain ⟨b', hdeliver, htook⟩ := h.deliver hlength (h.fits_of_ok (deliver_ok_of_send hsend))
    simp only [send, hdeliver] at hsend ⊢
    cases htook with
    | whole hcomplete hphase =>
      rw [segments_eq_nil_of_send hphase hsend]
      exact hphase
    | part hincomplete hnext =>
      refine ih hnext hincomplete hlength (fun i hi => ?_) hsend
      rw [Transfer.covers_receive h.canonical, List.length_take, List.length_drop]
      rcases hall i hi with hcover | hin
      · exact .inl (.inr hcover)
      · omega

/-! ## Requests for a whole file -/

/-- After the run `ms` the transfer of `r` is pending as `t`, on an open connection, and `r` asks for all of the file. -/
structure Whole (ms : List Facility.Move) (live : LiveTable) (t : Transfer) (r : Request) : Prop where
  transfer : (Facility.after ms).transfers.get? r.transfer = some t
  pending : t.phase = .pending
  connection : t.connection = r.connection
  isOpen : (Facility.after ms).connections.contains r.connection = true
  live : live.isClosed r.connection = false
  clear : (Facility.after ms).faults .transfer = none
  fits : (t.length : Int) ≤ Word.maxSigned
  offset : r.offset = 0
  fileSize : r.fileSize = t.length
  length : t.length ≤ r.length

variable {ms : List Facility.Move} {live : LiveTable} {fetched : Fetched}

theorem Whole.collecting (h : Whole ms live t r) :
    Collecting r.connection r.transfer t ⟨Facility.after ms, live⟩ where
  isOpen := h.isOpen
  live := h.live
  clear := h.clear
  transfer := h.transfer
  connection_eq := h.connection
  pending := decide_eq_true h.pending
  canonical := ((Facility.traced_after ms).made h.transfer (decide_eq_true h.pending)).canonical

/-- A request for a whole file, from a source that has at least the file, is answered and completes the transfer exactly
if the file is not empty, the source returns nothing beyond it, and a byte of the last segment is still missing. -/
theorem Whole.answered_iff (h : Whole ms live t r) (hchunk : 0 < chunk) (hlong : t.length ≤ fetched.bytes.length)
    (hcontract : fetched.bytes.length ≤ r.length) :
    ((serve chunk r fetched ⟨Facility.after ms, live⟩).1 = .answered ∧
      ((serve chunk r fetched ⟨Facility.after ms, live⟩).2.facility.transfers.get? r.transfer).map Transfer.phase =
        some .completed) ↔
      0 < t.length ∧ fetched.bytes.length = t.length ∧
        ∃ i < t.length, ¬t.received.covers i ∧ (t.length - 1) / chunk * chunk ≤ i := by
  have hwanted : wanted r fetched = fetched.bytes := List.take_of_length_le hcontract
  have hshort : FallsShort r fetched ↔ fetched.bytes = [] := by
    refine or_iff_left ?_
    rw [wantedStop, hwanted, Request.owedStop, h.fileSize, h.offset]
    omega
  have hplan (hne : fetched.bytes ≠ []) : Answer.plan chunk r fetched = segments chunk 0 fetched.bytes := by
    rw [plan_eq, if_neg (mt hshort.1 hne), hwanted, h.offset, List.append_nil]
  rw [serve_answered_iff hchunk, hshort, serve, run_bridge]
  by_cases hne : fetched.bytes = []
  · have hzero : t.length = 0 := by simpa [hne] using hlong
    simp [hne, hzero]
  rw [hplan hne]
  by_cases hzero : t.length = 0
  · refine iff_of_false ?_ (by omega)
    rintro ⟨⟨hsend, -⟩, -⟩
    rw [segments_cons hchunk _ hne] at hsend
    have hle := h.collecting.fits_of_ok (deliver_ok_of_send hsend)
    have hpos : 0 < fetched.bytes.length := List.length_pos_iff.2 hne
    rw [List.length_take] at hle
    omega
  have hincomplete : t.isComplete = false :=
    (Facility.traced_after ms).incomplete h.transfer (decide_eq_true h.pending) (Nat.pos_of_ne_zero hzero)
  have hsend := send_segments_iff h.collecting hincomplete h.fits hchunk 0 hne
  have hall : ∀ i < t.length, t.received.covers i ∨ 0 ≤ i ∧ i < 0 + fetched.bytes.length :=
    fun i hi => .inr ⟨Nat.zero_le i, by omega⟩
  have hcompleted := completed_of_send h.collecting hincomplete h.fits hchunk 0 hall
  rw [and_iff_left_of_imp fun hs => hcompleted hs.1, and_iff_left hne, hsend]
  simp only [Nat.zero_add, Nat.not_lt_zero, false_or]
  constructor
  · rintro ⟨hle, hmissing⟩
    have heq : fetched.bytes.length = t.length := by omega
    exact ⟨by omega, heq, heq ▸ hmissing⟩
  · rintro ⟨-, heq, hmissing⟩
    exact ⟨by omega, heq ▸ hmissing⟩

end

section

variable {σ : Type} [CloudFacility σ]

/-- What is sent stays within what is owed exactly if the wanted bytes do, or the facility refused a segment before they
left it. From a store, the wanted bytes leave it exactly if the request reaches beyond the file and the object has bytes
there. A request for a whole file, from a source that has it, is answered and completes the transfer exactly if the file
is not empty, the source has nothing beyond it, and a byte of the last segment is still missing. -/
theorem sent_within_owed_iff (config : PoolConfig) (r : Request) (fetched : Fetched) :
    (∀ (others : Nat → Bridge σ → Bridge σ) (b : Bridge σ),
      (∀ x ∈ course others config.chunkSize r fetched b, ∀ i, x.completion.Covers i → r.offset ≤ i ∧ i < r.owedStop) ↔
        wantedStop r fetched ≤ r.owedStop ∨
          ∃ x ∈ course others config.chunkSize r fetched b, x.isAccepted = false ∧
            ∃ start piece, x.completion = .data start piece ∧ start + piece.length ≤ r.owedStop) ∧
    (∀ store object content, ObjectStore.Holds store object content → r.identity.text? = some object →
      content.length ≤ Word.maxUnsigned →
      (wantedStop r (store.fetched r) ≤ r.owedStop ↔
        content.length ≤ r.fileSize ∨ r.offset + r.length ≤ r.fileSize ∨ content.length ≤ r.offset ∨ r.length = 0)) ∧
    (∀ ms live t, Whole ms live t r → t.length ≤ fetched.bytes.length → fetched.bytes.length ≤ r.length →
      ((serve config.normalized.chunkSize r fetched ⟨Facility.after ms, live⟩).1 = .answered ∧
        ((serve config.normalized.chunkSize r fetched ⟨Facility.after ms, live⟩).2.facility.transfers.get?
          r.transfer).map Transfer.phase = some .completed ↔
        0 < t.length ∧ fetched.bytes.length = t.length ∧
          ∃ i < t.length, ¬t.received.covers i ∧
            (t.length - 1) / config.normalized.chunkSize * config.normalized.chunkSize ≤ i)) :=
  ⟨fun others b => within_owed_iff others config.chunkSize r fetched b,
    fun _ _ _ hstore hidentity hcontent => wantedStop_fetched_le_iff hstore hidentity hcontent,
    fun _ _ _ hwhole hlong hcontract => hwhole.answered_iff (alignedChunk_pos _) hlong hcontract⟩

/-- A request that reaches beyond its file of two bytes. -/
def beyond : Request := Delivery.asked 0 4096

def twoBytesOpened : Bridge Facility := ⟨Facility.after Delivery.twoBytes, .empty⟩

theorem whole_beyond : Whole Delivery.twoBytes .empty (.start ⟨0x1001⟩ ⟨"/r/a"⟩ 2) beyond :=
  ⟨by decide +kernel, rfl, rfl, by decide +kernel, rfl, rfl, by decide, rfl, rfl, by decide⟩

/-- From an object of two bytes the file is answered; an object of three bytes has one beyond what is owed. -/
theorem equal_object_answered :
    ((serve 4096 beyond (.data [1, 2]) twoBytesOpened).1 = .answered ∧
      ((serve 4096 beyond (.data [1, 2]) twoBytesOpened).2.facility.transfers.get? beyond.transfer).map Transfer.phase =
        some .completed) ∧
    ¬wantedStop beyond (Delivery.threeBytes.fetched beyond) ≤ beyond.owedStop := by
  obtain ⟨-, hstore, hanswered⟩ := sent_within_owed_iff (σ := Facility) ⟨1, 0, 0⟩ beyond (.data [1, 2])
  have hmissing : ¬(Transfer.start ⟨0x1001⟩ ⟨"/r/a"⟩ 2).received.covers 0 := by simp [Transfer.start, Coverage.covers]
  refine ⟨?_, ?_⟩
  · exact (hanswered _ _ _ whole_beyond (by decide) (by decide)).2 ⟨by decide, rfl, 0, by decide, hmissing, by decide⟩
  · rw [hstore Delivery.threeBytes "o" [1, 2, 3] ⟨rfl, rfl⟩ (by decide +kernel) (by decide)]
    decide

/-- The object has a byte more than the file: it is sent too, the facility refuses all of it, and the transfer stays
pending. -/
theorem longer_object_refused :
    Delivery.threeBytes.fetched beyond = .data [1, 2, 3] ∧ beyond.owedStop = 2 ∧
      course (fun _ b => b) 4096 beyond (.data [1, 2, 3]) twoBytesOpened =
        [⟨.data 0 [1, 2, 3], true, some (.rejected ⟨0x1001⟩ ⟨1⟩ .invalidArgument)⟩] ∧
      (serve 4096 beyond (.data [1, 2, 3]) twoBytesOpened).1 = .abandoned ∧
      ((serve 4096 beyond (.data [1, 2, 3]) twoBytesOpened).2.facility.transfers.get? beyond.transfer).map
        Transfer.phase = some .pending :=
  ⟨by decide +kernel, by decide, by decide +kernel, by decide +kernel, by decide +kernel⟩

/-! ## Failures without a debt -/

/-- A failure is sent exactly if the source falls short and everything before the failure is accepted. -/
theorem terminal_iff (others : Nat → Bridge σ → Bridge σ) (size : Nat) (r : Request) (fetched : Fetched)
    (b : Bridge σ) :
    (∃ x ∈ course others size r fetched b, x.isTerminal = true) ↔
      (∀ x ∈ course others size r fetched b, x.isTerminal = false → x.isAccepted = true) ∧ FallsShort r fetched := by
  constructor
  · rintro ⟨x, hx, hterminal⟩
    refine ⟨fun y hy hdata => ?_, Classical.byContradiction fun hlong => ?_⟩
    · -- Nothing is sent after a refusal, and no failure before anything else.
      cases haccepted : y.isAccepted with
      | true => rfl
      | false =>
        obtain ⟨before, rest, hxs, -, hplan⟩ := exists_before_of_refused hy haccepted
        rcases List.mem_append.1 (hxs ▸ hx : x ∈ before ++ [y]) with h | h
        · obtain ⟨start, piece, hcompletion⟩ := exists_data_of_mem_before hplan (List.mem_map_of_mem h)
          simp [Exchange.isTerminal, hcompletion] at hterminal
        · rw [← List.mem_singleton.1 h, hterminal] at hdata
          cases hdata
    · have hmem : x.completion ∈ Answer.plan (alignedChunk size) r fetched :=
        (exchanges_prefix_plan others r _ b).mem (List.mem_map_of_mem hx)
      rw [plan_eq, if_neg hlong, List.append_nil] at hmem
      obtain ⟨start, piece, hcompletion⟩ := exists_data_of_mem_segments hmem
      simp [Exchange.isTerminal, hcompletion] at hterminal
  · rintro ⟨hdata, hshort⟩
    by_cases hall : ∀ x ∈ course others size r fetched b, x.isAccepted = true
    · have hmem : .failure (wantedStop r fetched) fetched.failure ∈
          (course others size r fetched b).map Exchange.completion := by
        rw [course, map_completion_of_accepted hall, plan_eq, if_pos hshort]
        simp
      obtain ⟨x, hx, hcompletion⟩ := List.mem_map.1 hmem
      exact ⟨x, hx, by rw [Exchange.isTerminal, hcompletion]⟩
    · simp only [Classical.not_forall] at hall
      obtain ⟨x, hx, hno⟩ := hall
      exact ⟨x, hx, by simpa using mt (hdata x hx) hno⟩

/-- A request is failed exactly if what comes before the failure is accepted and the source failed, timed out, had
nothing or had less than is owed. That it had nothing is the one reason without a debt; a store has nothing from the
object's end on. -/
theorem failed_iff (config : PoolConfig) (others : Nat → Bridge σ → Bridge σ) (r : Request) (fetched : Fetched)
    (b : Bridge σ) :
    ((∃ x ∈ course others config.chunkSize r fetched b, x.isTerminal = true) ↔
      (∀ x ∈ course others config.chunkSize r fetched b, x.isTerminal = false → x.isAccepted = true) ∧
        (fetched = .failed ∨ fetched = .timedOut ∨ fetched = .data [] ∨ wantedStop r fetched < r.owedStop)) ∧
    (((∃ x ∈ course others config.chunkSize r fetched b, x.isTerminal = true) →
        fetched = .failed ∨ fetched = .timedOut ∨ wantedStop r fetched < r.owedStop) ↔
      ¬(fetched = .data [] ∧ r.owedStop = r.offset)) ∧
    (∀ store object content, ObjectStore.Holds store object content → r.identity.text? = some object →
      content.length ≤ Word.maxUnsigned →
      (store.fetched r = .data [] ↔ content.length ≤ r.offset ∨ r.length = 0)) := by
  have hiff := terminal_iff others config.chunkSize r fetched b
  have hstop : wantedStop r (.data []) = r.offset := by simp [wantedStop, wanted, Fetched.bytes]
  refine ⟨hiff.trans (and_congr_right fun _ => fallsShort_iff), ⟨?_, fun h hterminal => ?_⟩, ?_⟩
  · rintro h ⟨rfl, hnone⟩
    have hfailure : ∃ x ∈ course others config.chunkSize r (.data []) b, x.isTerminal = true :=
      ⟨exchange r (.failure r.offset .failure) (others 0 b), by simp [course, Answer.plan, exchanges], rfl⟩
    have hlt : wantedStop r (.data []) < r.owedStop := by simpa using h hfailure
    rw [hstop, hnone] at hlt
    exact Nat.lt_irrefl _ hlt
  · rcases fallsShort_iff.1 (hiff.1 hterminal).2 with rfl | rfl | rfl | hlt
    · exact .inl rfl
    · exact .inr (.inl rfl)
    · rw [hstop]
      exact .inr (.inr (Nat.lt_of_le_of_ne (Nat.le_max_right ..) fun he => h ⟨rfl, he.symm⟩))
    · exact .inr (.inr hlt)
  · intro store object content hstore hidentity hcontent
    rw [hstore.fetched hidentity hcontent, Fetched.data.injEq, ← List.length_eq_zero_iff, Bytes.length_window]
    omega

def emptyFile : Facility :=
  Facility.after [.register ⟨"/r"⟩ (.new "r" "1"), .connect ⟨"/r"⟩ none,
    .create ⟨"/r"⟩ (.of "a" (.ofText "o") 0 0 false)]

def noBytes : ObjectStore := Store.Memory.store (.ofList [("o", [])])

/-- Of a file of ten bytes whose object is empty, ten bytes are owed. -/
theorem empty_object_fails :
    noBytes.fetched allTen = .data [] ∧ wantedStop allTen (.data []) < allTen.owedStop := by
  obtain ⟨-, hdebt, hstore⟩ :=
    failed_iff ⟨1, 0, 0⟩ (fun _ b => b) allTen (.data []) (⟨tenBytes, .empty⟩ : Bridge Facility)
  have hterminal : ∃ x ∈ course (fun _ b => b) 0 allTen (.data []) (⟨tenBytes, .empty⟩ : Bridge Facility),
      x.isTerminal = true := by decide +kernel
  refine ⟨(hstore noBytes "o" [] ⟨rfl, rfl⟩ (by decide +kernel) (by decide)).2 (.inl (by decide)), ?_⟩
  simpa using hdebt.2 (by decide) hterminal

/-- A read of the empty file fails, although all of its object has been read and nothing is owed. -/
theorem empty_file_unreadable :
    ∃ reader fetch f, emptyFile.startRead ⟨"/r/a"⟩ 0 10 = (.opened reader fetch, f) ∧
      noBytes.fetched (.ofFetch fetch.info) = .data [] ∧
      (Request.ofFetch fetch.info).owedStop = (Request.ofFetch fetch.info).offset ∧
      (serve 4096 (.ofFetch fetch.info) (.data []) (⟨f, .empty⟩ : Bridge Facility)).1 = .failed ∧
      (serve 4096 (.ofFetch fetch.info) (.data []) (⟨f, .empty⟩ : Bridge Facility)).2.facility.readResult? reader =
        some (.error (.failed ⟨"/r/a"⟩ .failure)) := by
  refine ⟨_, _, _, rfl, ?_, ?_, ?_, ?_⟩
  · decide +kernel
  · decide +kernel
  · decide +kernel
  · decide +kernel

end

end Answer

end OnDemand
