import OnDemand.Proofs.Facility.Checked
import OnDemand.Proofs.Hydration.Return
import OnDemand.Proofs.Hydration.Tiling

/-!
# Answers within words and buffers

The plan of an answer with its sums checked against unsigned words, and its segments against the fetched bytes. For a
callback whose numbers are signed words it is the unchecked one, whatever the segment length was configured to be: a
second segment starts where a first one has ended, so that the segment length is then no more than the fetched bytes.
-/

namespace OnDemand

/-- The numbers of `info` are signed words. -/
structure FetchInfo.InWords (info : FetchInfo) : Prop where
  offset : Word.fitsSigned info.offset = true
  length : Word.fitsSigned info.length = true
  fileSize : Word.fitsSigned info.fileSize = true

/-- A signed word can count the fetched bytes. -/
def Fetched.InWords (fetched : Fetched) : Prop := (fetched.bytes.length : Int) ≤ Word.maxSigned

namespace Answer

variable {chunk offset stop pos : Nat} {bytes : Bytes} {r : Request} {fetched : Fetched}

/-! ## The checked plan -/

/-- The segments of `bytes` from `pos` up to `stop`, with every sum and slice checked. -/
def segmentsFrom? (chunk offset : Nat) (bytes : Bytes) (stop pos : Nat) : Option (List Completion) :=
  if pos < stop then do
    let next ← Word.add? pos chunk
    let start ← Word.add? offset pos
    let piece ← bytes.slice? pos (min next stop)
    -- A loop that makes no progress would not end.
    if _ : pos < min next stop then
      let rest ← segmentsFrom? chunk offset bytes stop (min next stop)
      return .data start piece :: rest
    else none
  else some []
termination_by stop - pos
decreasing_by omega

/-- `plan`, with every sum and slice checked. -/
def plan? (chunk : Nat) (r : Request) : Fetched → Option (List Completion)
  | .data [] | .failed => some [.failure r.offset .failure]
  | .timedOut => some [.failure r.offset .ioTimeout]
  | .data bytes => do
    let stop := min bytes.length r.length
    let sent ← segmentsFrom? chunk r.offset bytes stop 0
    let delivered ← Word.add? r.offset stop
    return sent ++ shortfall r delivered

/-- A first segment starts at zero. Before any other one stand at least as many fetched bytes as a segment has. -/
theorem next_le_maxUnsigned (hchunk : chunk ≤ Word.maxUnsigned) (hstop : (stop : Int) ≤ Word.maxSigned) (hlt : pos < stop)
    (hstart : pos = 0 ∨ chunk ≤ pos) : pos + chunk ≤ Word.maxUnsigned := by
  simp only [Word.maxSigned, Word.maxUnsigned] at *
  rcases hstart with hzero | hle <;> omega

theorem slice?_piece (hlt : pos < stop) (hstop : stop ≤ bytes.length) :
    bytes.slice? pos (min (pos + chunk) stop) = some (((bytes.take stop).drop pos).take chunk) := by
  rw [Bytes.slice?_eq_some (by omega) (by omega), List.drop_take, List.drop_take, List.take_take]
  congr 2
  omega

/-- What follows a segment starts at its end. After the last one nothing does, wherever it would start. -/
theorem segments_drop_piece :
    segments chunk (offset + pos + chunk) (((bytes.take stop).drop pos).drop chunk) =
      segments chunk (offset + min (pos + chunk) stop) ((bytes.take stop).drop (min (pos + chunk) stop)) := by
  rw [List.drop_drop]
  by_cases hwhole : pos + chunk ≤ stop
  · rw [Nat.min_eq_left hwhole, Nat.add_assoc]
  · have hlength : (bytes.take stop).length ≤ stop := List.length_take_le ..
    rw [List.drop_eq_nil_of_le (by omega), List.drop_eq_nil_of_le (by omega), segments_nil, segments_nil]

theorem segmentsFrom?_eq (hpos : 0 < chunk) (hchunk : chunk ≤ Word.maxUnsigned)
    (hoffset : (offset : Int) ≤ Word.maxSigned) (hbytes : (bytes.length : Int) ≤ Word.maxSigned)
    (hstop : stop ≤ bytes.length) (hstart : pos < stop → pos = 0 ∨ chunk ≤ pos) :
    segmentsFrom? chunk offset bytes stop pos = some (segments chunk (offset + pos) ((bytes.take stop).drop pos)) := by
  fun_induction segmentsFrom? chunk offset bytes stop pos with
  | case1 pos hlt ih =>
    have hnext := Word.add?_eq_some (next_le_maxUnsigned hchunk (by omega) hlt (hstart hlt))
    have hfirst : Word.add? offset pos = some (offset + pos) := Word.add?_of_signed hoffset (by omega)
    have hprogress : pos < min (pos + chunk) stop := by omega
    have hne : (bytes.take stop).drop pos ≠ [] := by
      refine List.ne_nil_of_length_pos ?_
      rw [List.length_drop, List.length_take]
      omega
    -- If there is another segment, this one was a full one.
    have hrest := ih (pos + chunk) hprogress fun hlt => .inr (by omega)
    rw [segments_cons hpos _ hne, segments_drop_piece]
    simp only [hnext, hfirst, slice?_piece hlt hstop, Option.bind_eq_bind, Option.bind_some, dif_pos hprogress, hrest]
    rfl
  | case2 pos hge =>
    rw [List.drop_eq_nil_of_le (by rw [List.length_take]; omega), segments_nil]

/-- Delivering stops with the fetched bytes or with the request, whichever is shorter. -/
theorem segmentsFrom?_zero (hpos : 0 < chunk) (hchunk : chunk ≤ Word.maxUnsigned)
    (hoffset : (offset : Int) ≤ Word.maxSigned) (hbytes : (bytes.length : Int) ≤ Word.maxSigned) (length : Nat) :
    segmentsFrom? chunk offset bytes (min bytes.length length) 0 = some (segments chunk offset (bytes.take length)) := by
  have htake : bytes.take (min bytes.length length) = bytes.take length := List.take_eq_take_iff.2 (by omega)
  rw [segmentsFrom?_eq hpos hchunk hoffset hbytes (Nat.min_le_left ..) fun _ => .inl rfl, htake]
  rfl

theorem plan?_eq (hpos : 0 < chunk) (hchunk : chunk ≤ Word.maxUnsigned) (hoffset : (r.offset : Int) ≤ Word.maxSigned)
    (hfetched : fetched.InWords) : plan? chunk r fetched = some (plan chunk r fetched) := by
  cases fetched with
  | failed => rfl
  | timedOut => rfl
  | data bytes =>
    cases bytes with
    | nil => rfl
    | cons byte bytes =>
      have hbytes : ((byte :: bytes).length : Int) ≤ Word.maxSigned := hfetched
      have hstop : ((min (byte :: bytes).length r.length : Nat) : Int) ≤ Word.maxSigned :=
        Int.le_trans (Int.ofNat_le.2 (Nat.min_le_left ..)) hbytes
      have hsent := segmentsFrom?_zero hpos hchunk hoffset hbytes r.length
      have hdelivered := Word.add?_of_signed hoffset hstop
      simp only [plan?, plan]
      rw [hsent, hdelivered, List.length_take, Nat.min_comm r.length]
      rfl

end Answer

/-! ## Configured segment lengths -/

theorem alignedChunk_le {size : Nat} (h : size ≤ Word.maxUnsigned) : alignedChunk size ≤ Word.maxUnsigned :=
  Nat.max_le.2 ⟨Nat.le_trans (Nat.div_mul_le_self ..) h, by decide⟩

/-! ## What is handed over -/

section

variable {σ : Type} {b b' b'' : Bridge (Recorded σ)}

/-- From `b` to `b'` the facility is asked for transfer operations only, at offsets that are signed words and not
negative. -/
def HandsOver (b b' : Bridge (Recorded σ)) : Prop :=
  ∃ notes, b'.facility.notes = b.facility.notes ++ notes ∧
    ∀ n ∈ notes, ∃ op refusal, n = .execute op refusal ∧ 0 ≤ op.offset ∧ op.offset ≤ Word.maxSigned

theorem HandsOver.refl (b : Bridge (Recorded σ)) : HandsOver b b := ⟨[], by simp⟩

theorem HandsOver.trans (h : HandsOver b b') (h' : HandsOver b' b'') : HandsOver b b'' := by
  obtain ⟨notes, hnotes, hoffsets⟩ := h
  obtain ⟨notes', hnotes', hoffsets'⟩ := h'
  refine ⟨notes ++ notes', by rw [hnotes', hnotes, List.append_assoc], fun n hn => ?_⟩
  rcases List.mem_append.1 hn with hn | hn
  · exact hoffsets n hn
  · exact hoffsets' n hn

variable [CloudFacility σ]

theorem handsOver_deliver (b : Bridge (Recorded σ)) (connection : ConnectionKey) (k : TransferKey) (c : Completion) :
    HandsOver b (b.deliver connection k c).2 := by
  cases hasks : b.asks connection c with
  | false =>
    rw [Bridge.deliver_not_asked hasks]
    exact .refl b
  | true =>
    obtain ⟨refusal, hnotes⟩ := Bridge.reaches_deliver.2 hasks
    refine ⟨_, hnotes, fun n hn => ⟨_, refusal, List.mem_singleton.1 hn, ?_⟩⟩
    rw [Completion.operation_offset]
    exact ⟨Int.natCast_nonneg _, fitsSigned_natCast.1 (Bridge.asks_iff.1 hasks).1⟩

theorem handsOver_send (r : Request) (plan : List Completion) (b : Bridge (Recorded σ)) :
    HandsOver b (Answer.send r plan b).2 := by
  induction plan generalizing b with
  | nil => exact .refl b
  | cons c rest ih =>
    have hdeliver := handsOver_deliver b r.connection r.transfer c
    cases h : b.deliver r.connection r.transfer c with
    | mk answer b' =>
      rw [h] at hdeliver
      cases answer with
      | ok _ => simpa [Answer.send, h] using hdeliver.trans (ih b')
      | error e => simpa [Answer.send, h] using hdeliver

theorem handsOver_run (r : Request) (plan : List Completion) (b : Bridge (Recorded σ)) :
    HandsOver b (Answer.run r plan b).2 := by
  rw [Answer.run_bridge]
  exact handsOver_send r plan b

/-- So does every move of a channel and its pool. -/
theorem Hydration.handsOver_move {h h' : Hydration (Recorded σ)} {m : Hydration.Move} (hm : h.move? m = some h') :
    HandsOver h.bridge h'.bridge := by
  cases Hydration.step_of_move? hm with
  | refused info ha => exact handsOver_run ..
  | drained hstage hq => exact handsOver_run ..
  | finished fetched hjob => exact handsOver_run ..
  | _ => exact .refl _

end

/-! ## Jobs -/

section

variable {σ : Type} [CloudFacility σ] {h : Hydration σ} {l : Hydration.Ledger} {capacity : Nat} {config : PoolConfig}

/-- The request of a job is that of a callback. -/
theorem Hydration.exists_mirrors_of_job (hr : Hydration.Reaches capacity config h l) {job : Job}
    (hjob : job ∈ h.pool.jobs) :
    ∃ info ∈ l.arrived, Hydration.Mirrors job.request info := by
  have hb := Hydration.balanced_of_reaches hr
  obtain ⟨e, he, hrequest⟩ := Option.map_eq_some_iff.1 (hb.jobs job hjob)
  obtain ⟨info, hinfo, hmirrors⟩ := hb.mirrors e (by
    simp [Hydration.Ledger.accepted, List.mem_of_getElem? he])
  exact ⟨info, List.mem_of_getElem? hinfo, hrequest ▸ hmirrors⟩

/-- The plan for a request whose offset is that of a callback, or zero for a negative one. -/
theorem Answer.plan?_of_mirrors {r : Request} {info : FetchInfo} {fetched : Fetched} {size : Nat}
    (hsize : size ≤ Word.maxUnsigned) (hmirrors : Hydration.Mirrors r info) (hinfo : info.InWords)
    (hfetched : fetched.InWords) : plan? (alignedChunk size) r fetched = some (plan (alignedChunk size) r fetched) := by
  have hoffset := (Word.fitsSigned_iff.1 hinfo.offset).2
  have hzero : 0 ≤ Word.maxSigned := by decide
  have hmirrored := hmirrors.offset
  exact plan?_eq (alignedChunk_pos size) (alignedChunk_le hsize) (by omega) hfetched

end

/-! ## The whole path -/

/-- From a callback to the buffer of a transfer, where numbers are signed words, sums stay within unsigned words and
slices within their bytes: what the plans, the jobs of a pool and the transfer operations do is what they do with every
sum and slice checked. Only offsets that are not negative are handed over, and a pending transfer has its whole buffer. -/
theorem transfer_path_in_bounds {σ : Type} [CloudFacility σ] {config : PoolConfig} {ms : List Facility.Move}
    (hsize : config.chunkSize ≤ Word.maxUnsigned) (hms : ∀ m ∈ ms, m.InWords) :
    (∀ (info : FetchInfo) (fetched : Fetched), info.InWords → fetched.InWords →
      Answer.plan? config.normalized.chunkSize (.ofFetch info) fetched =
        some (Answer.plan config.normalized.chunkSize (.ofFetch info) fetched)) ∧
    (∀ capacity (h : Hydration σ) l, Hydration.Reaches capacity config h l → (∀ info ∈ l.arrived, info.InWords) →
      ∀ job ∈ h.pool.jobs, ∀ fetched : Fetched, fetched.InWords →
        Answer.plan? h.pool.config.chunkSize job.request fetched =
          some (Answer.plan h.pool.config.chunkSize job.request fetched)) ∧
    (∀ (b : Bridge (Recorded σ)) connection k c, HandsOver b (b.deliver connection k c).2) ∧
    (∀ (h h' : Hydration (Recorded σ)) m, h.move? m = some h' → HandsOver h.bridge h'.bridge) ∧
    (∀ k t, (Facility.after ms).transfers.get? k = some t → t.isPending = true → t.buffer.length = t.length) ∧
    ∀ op : TransferOperation, op.InWords →
      Facility.execute? op (Facility.after ms) = some (Facility.execute op (Facility.after ms)) := by
  refine ⟨?_, ?_, handsOver_deliver, fun _ _ _ hm => Hydration.handsOver_move hm, ?_, ?_⟩
  · intro info fetched hinfo hfetched
    exact Answer.plan?_of_mirrors hsize (Hydration.mirrors_ofFetch info) hinfo hfetched
  · intro capacity h l hr harrived job hjob fetched hfetched
    obtain ⟨info, hinfo, hmirrors⟩ := Hydration.exists_mirrors_of_job hr hjob
    rw [(Hydration.awaited_of_reaches hr).normalized]
    exact Answer.plan?_of_mirrors hsize hmirrors (harrived info hinfo) hfetched
  · intro k t ht hp
    exact (Facility.allocated_after hms ht hp).size
  · intro op hop
    exact Facility.execute?_after hms hop

/-- The transfer 1 of a file of four bytes has been opened. -/
def fourBytes : List Facility.Move :=
  [.register ⟨"/r"⟩ (.new "r" "1"), .connect ⟨"/r"⟩ none, .create ⟨"/r"⟩ (.of "a" (.ofText "o") 4 0 false),
    .begin ⟨"/r/a"⟩]

/-- A callback for the last position that a signed word can name. -/
def lastPosition : FetchInfo := ⟨⟨0x1001⟩, ⟨1⟩, [], Word.maxSigned, Word.maxSigned, Word.maxSigned, none⟩

/-- The longest segments, the last position and a segment beyond the end of its transfer. -/
theorem last_position_in_bounds :
    Answer.plan? (PoolConfig.normalized ⟨1, Word.maxUnsigned, 0⟩).chunkSize (.ofFetch lastPosition) (.data [1, 2]) =
        some [.data 9223372036854775807 [1, 2]] ∧
      (Facility.execute? (.data ⟨0x1001⟩ ⟨1⟩ [1, 2] Word.maxSigned) (Facility.after fourBytes)).map (·.1) =
        some (.error .invalidArgument) ∧
      (Facility.execute? (.data ⟨0x1001⟩ ⟨1⟩ [1, 2] 2) (Facility.after fourBytes)).map (·.1) = some (.ok ()) := by
  have hms : ∀ m ∈ fourBytes, m.InWords := by
    intro m hm
    simp only [fourBytes, List.mem_cons, List.not_mem_nil, or_false] at hm
    rcases hm with rfl | rfl | rfl | rfl
    · trivial
    · trivial
    · exact (by decide : Word.fitsSigned 4 = true)
    · trivial
  have hop (offset : Int) (hoffset : Word.fitsSigned offset = true) :
      (TransferOperation.data ⟨0x1001⟩ ⟨1⟩ [1, 2] offset).InWords :=
    ⟨hoffset, rfl, fun data hdata => by
      obtain rfl := Option.some.inj hdata
      decide⟩
  have hsize : (⟨1, Word.maxUnsigned, 0⟩ : PoolConfig).chunkSize ≤ Word.maxUnsigned := Nat.le_refl _
  obtain ⟨hplan, -, -, -, -, hexecute⟩ := transfer_path_in_bounds (σ := Facility) hsize hms
  refine ⟨?_, ?_, ?_⟩
  · have hfetched : (Fetched.data [1, 2]).InWords := (by decide : ((2 : Nat) : Int) ≤ Word.maxSigned)
    rw [hplan lastPosition (.data [1, 2]) ⟨by decide, by decide, by decide⟩ hfetched]
    decide +kernel
  · rw [hexecute _ (hop Word.maxSigned (by decide))]
    decide +kernel
  · rw [hexecute _ (hop 2 (by decide))]
    decide +kernel

end OnDemand
