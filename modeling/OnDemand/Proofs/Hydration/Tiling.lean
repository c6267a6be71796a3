import OnDemand.Hydration.Pool
import OnDemand.Proofs.Hydration.Exchange

/-!
# What is sent for a request

The data segments that are sent for a request lie end to end from the requested offset on. They are as long as the pool
is set to, but for the last, and hand over what the source returned from its first byte on. After them comes one failure
or nothing. Sending stops at the first refusal.
-/

namespace OnDemand

/-- `cs` are data segments for `bytes`, end to end from `offset` on, of `chunk` bytes each but for the last. -/
inductive Tiles (chunk : Nat) : Nat → Bytes → List Completion → Prop where
  | nil {offset : Nat} : Tiles chunk offset [] []
  | last {offset : Nat} {piece : Bytes} (hne : piece ≠ []) (hle : piece.length ≤ chunk) :
      Tiles chunk offset piece [.data offset piece]
  | cons {offset : Nat} {piece bytes : Bytes} {cs : List Completion} (hfull : piece.length = chunk)
      (hrest : Tiles chunk (offset + piece.length) bytes cs) :
      Tiles chunk offset (piece ++ bytes) (.data offset piece :: cs)

namespace Tiles

variable {chunk offset : Nat} {bytes : Bytes} {cs front back : List Completion} {c : Completion}

theorem of_append (h : Tiles chunk offset bytes (front ++ back)) :
    ∃ taken, taken <+: bytes ∧ Tiles chunk offset taken front := by
  induction front generalizing offset bytes with
  | nil => exact ⟨[], List.nil_prefix, .nil⟩
  | cons c front ih =>
    cases hcs : front ++ back with
    | nil =>
      obtain ⟨rfl, rfl⟩ := List.append_eq_nil_iff.1 hcs
      exact ⟨bytes, List.prefix_rfl, by simpa using h⟩
    | cons d rest =>
      rw [List.cons_append, hcs] at h
      cases h with
      | cons hfull hrest =>
        obtain ⟨taken, hprefix, htiles⟩ := ih (hcs ▸ hrest)
        exact ⟨_, (List.prefix_append_right_inj _).2 hprefix, .cons hfull htiles⟩

/-- The segments cover what they hand over, and nothing else. -/
theorem exists_covers_iff (h : Tiles chunk offset bytes cs) {i : Nat} :
    (∃ c ∈ cs, c.Covers i) ↔ offset ≤ i ∧ i < offset + bytes.length := by
  induction h with
  | nil => simp
  | last => simp [Completion.Covers]
  | cons hfull hrest ih =>
    simp only [List.mem_cons, or_and_right, exists_or, exists_eq_left, ih]
    simp only [Completion.Covers, List.length_append]
    omega

theorem exists_data (h : Tiles chunk offset bytes cs) (hc : c ∈ cs) :
    ∃ start piece, c = .data start piece ∧ start + piece.length ≤ offset + bytes.length := by
  induction h with
  | nil => cases hc
  | last => exact ⟨_, _, List.mem_singleton.1 hc, Nat.le_refl _⟩
  | cons hfull hrest ih =>
    rw [List.length_append]
    rcases List.mem_cons.1 hc with rfl | hc
    · exact ⟨_, _, rfl, by omega⟩
    · obtain ⟨start, piece, rfl, hle⟩ := ih hc
      exact ⟨start, piece, rfl, by omega⟩

theorem stop_of_concat {start : Nat} {piece : Bytes}
    (h : Tiles chunk offset bytes (front ++ [.data start piece])) : start + piece.length = offset + bytes.length := by
  induction front generalizing offset bytes with
  | nil =>
    cases h with
    | last => rfl
    | cons hfull hrest =>
      cases hrest
      rw [List.append_nil]
  | cons c front ih =>
    rw [List.cons_append] at h
    generalize hcs : front ++ [Completion.data start piece] = cs at h
    cases h with
    | last => simp at hcs
    | cons hfull hrest =>
      rw [ih (hcs ▸ hrest), List.length_append]
      omega

/-- A segment starts a number of whole segments from the first, and is one itself or the last. -/
theorem exists_start (h : Tiles chunk offset bytes cs) {start : Nat} {piece : Bytes}
    (hc : Completion.data start piece ∈ cs) :
    ∃ n, start = offset + n * chunk ∧
      (piece.length = chunk ∨ start + piece.length = offset + bytes.length) := by
  induction h with
  | nil => cases hc
  | last =>
    obtain ⟨rfl, rfl⟩ := Completion.data.inj (List.mem_singleton.1 hc)
    exact ⟨0, by simp, .inr rfl⟩
  | @cons offset first bytes cs hfull hrest ih =>
    rcases List.mem_cons.1 hc with hc | hc
    · obtain ⟨rfl, rfl⟩ := Completion.data.inj hc
      exact ⟨0, by simp, .inl hfull⟩
    · obtain ⟨n, rfl, hpiece⟩ := ih hc
      refine ⟨n + 1, by rw [hfull, Nat.succ_mul]; omega, hpiece.imp_right fun hstop => ?_⟩
      rw [hstop, List.length_append]
      omega

end Tiles

namespace Answer

variable {σ : Type} [CloudFacility σ] {others : Nat → Bridge σ → Bridge σ} {r : Request} {plan : List Completion}
  {fetched : Fetched} {chunk : Nat} {b : Bridge σ} {x : Exchange}

theorem tiles_segments (hchunk : 0 < chunk) (offset : Nat) (bytes : Bytes) :
    Tiles chunk offset bytes (segments chunk offset bytes) := by
  fun_induction segments chunk offset bytes with
  | case1 offset bytes h =>
    obtain rfl : bytes = [] := h.resolve_left (Nat.ne_of_gt hchunk)
    exact .nil
  | case2 offset bytes h ih =>
    by_cases hlong : chunk ≤ bytes.length
    · have hfull : (bytes.take chunk).length = chunk := List.length_take_of_le hlong
      have htiles := Tiles.cons hfull (by rwa [hfull] : Tiles chunk (offset + (bytes.take chunk).length) _ _)
      rwa [List.take_append_drop] at htiles
    · rw [List.take_of_length_le (by omega), List.drop_of_length_le (by omega), segments_nil]
      exact .last (fun he => h (.inr he)) (by omega)

/-! ## Exchanges as a prefix of the plan -/

theorem exchanges_prefix_plan (others : Nat → Bridge σ → Bridge σ) (r : Request) (plan : List Completion) (b : Bridge σ) :
    (exchanges others r plan b).map Exchange.completion <+: plan := by
  rcases exchanges_cases others r plan b with ⟨hmap, -⟩ | ⟨before, x, rest, hxs, -, -, hplan⟩
  · exact ⟨[], (List.append_nil _).trans hmap⟩
  · exact ⟨rest, by rw [hxs, List.map_append, List.append_assoc, hplan]; rfl⟩

theorem accepted_of_mem_dropLast (hx : x ∈ (exchanges others r plan b).dropLast) : x.isAccepted = true := by
  rcases exchanges_cases others r plan b with ⟨-, hall⟩ | ⟨before, y, rest, hxs, hall, -, -⟩
  · exact hall x (List.dropLast_subset _ hx)
  · rw [hxs, List.dropLast_concat] at hx
    exact hall x hx

theorem map_completion_of_accepted (hall : ∀ x ∈ exchanges others r plan b, x.isAccepted = true) :
    (exchanges others r plan b).map Exchange.completion = plan := by
  rcases exchanges_cases others r plan b with ⟨hmap, -⟩ | ⟨before, x, rest, hxs, -, hno, -⟩
  · exact hmap
  · rw [hall x (by simp [hxs])] at hno
    cases hno

/-- Of the plan, the first segments are sent, or all of them and the failure. -/
theorem exists_taken (hchunk : 0 < chunk) (others : Nat → Bridge σ → Bridge σ) (r : Request) (fetched : Fetched)
    (b : Bridge σ) :
    ∃ taken segs ending,
      (exchanges others r (Answer.plan chunk r fetched) b).map Exchange.completion = segs ++ ending ∧
      Tiles chunk r.offset taken segs ∧ taken <+: wanted r fetched ∧
      (ending = [] ∨ taken = wanted r fetched ∧ ending = [.failure (wantedStop r fetched) fetched.failure]) ∧
      ((∀ x ∈ exchanges others r (Answer.plan chunk r fetched) b, x.isAccepted = true) →
        taken = wanted r fetched ∧ (ending ≠ [] ↔ FallsShort r fetched)) := by
  have htiles := tiles_segments hchunk r.offset (wanted r fetched)
  by_cases hall : ∀ x ∈ exchanges others r (Answer.plan chunk r fetched) b, x.isAccepted = true
  · refine ⟨_, _, _, (map_completion_of_accepted hall).trans (plan_eq chunk r fetched), htiles, List.prefix_rfl, ?_,
      fun _ => ⟨rfl, ?_⟩⟩
    · split <;> simp
    · split <;> simpa
  have hfront {sent : List Completion} (h : sent <+: segments chunk r.offset (wanted r fetched)) :
      ∃ taken, taken <+: wanted r fetched ∧ Tiles chunk r.offset taken sent := by
    obtain ⟨back, hback⟩ := h
    exact (hback ▸ htiles).of_append
  have hprefix := exchanges_prefix_plan others r (Answer.plan chunk r fetched) b
  generalize (exchanges others r (Answer.plan chunk r fetched) b).map Exchange.completion = sent at hprefix
  rw [plan_eq] at hprefix
  split at hprefix
  · rcases List.prefix_concat_iff.1 hprefix with hsent | hsent
    · exact ⟨_, _, _, hsent, htiles, List.prefix_rfl, .inr ⟨rfl, rfl⟩, fun h => absurd h hall⟩
    · obtain ⟨taken, htaken, hsegs⟩ := hfront hsent
      exact ⟨taken, _, [], (List.append_nil _).symm, hsegs, htaken, .inl rfl, fun h => absurd h hall⟩
  · rw [List.append_nil] at hprefix
    obtain ⟨taken, htaken, hsegs⟩ := hfront hprefix
    exact ⟨taken, _, [], (List.append_nil _).symm, hsegs, htaken, .inl rfl, fun h => absurd h hall⟩

/-! ## What reaches the facility -/

theorem asked_of_open (hopen : b.live.isClosed r.connection = false)
    (hothers : ∀ n b, b.live.isClosed r.connection = false → (others n b).live.isClosed r.connection = false)
    (hoffset : ∀ c ∈ plan, (c.offset : Int) ≤ Word.maxSigned) (hx : x ∈ exchanges others r plan b) : x.asked = true := by
  induction plan generalizing b with
  | nil => cases hx
  | cons c rest ih =>
    have hb := hothers rest.length b hopen
    simp only [exchanges, List.mem_cons] at hx
    rcases hx with rfl | hx
    · exact Bridge.asks_iff.2 ⟨fitsSigned_natCast.2 (hoffset c List.mem_cons_self), hb⟩
    · split at hx
      · exact ih (by rwa [Bridge.live_deliver]) (fun d hd => hoffset d (List.mem_cons_of_mem c hd)) hx
      · cases hx

theorem offset_le_of_mem_plan (hchunk : 0 < chunk) {c : Completion} (hc : c ∈ Answer.plan chunk r fetched) :
    c.offset ≤ r.offset + r.length := by
  have hwanted : (wanted r fetched).length ≤ r.length := List.length_take_le ..
  rw [plan_eq] at hc
  rcases List.mem_append.1 hc with hc | hc
  · obtain ⟨start, piece, rfl, hle⟩ := (tiles_segments hchunk r.offset (wanted r fetched)).exists_data hc
    simp only [Completion.offset]
    omega
  · split at hc
    · obtain rfl := List.mem_singleton.1 hc
      simp only [Completion.offset, wantedStop]
      omega
    · cases hc

theorem status?_classify (connection : ConnectionKey) (k : TransferKey) (s : Status) :
    (TransferError.classify connection k s).status? = some s := by
  unfold TransferError.classify
  split <;> rfl

theorem deliver_recorded {b : Bridge (Recorded σ)} {connection : ConnectionKey} {k : TransferKey} {c : Completion}
    {answer : Except Status Unit} {f : σ} (hasked : b.asks connection c = true)
    (hcall : CloudFacility.executeTransfer (c.operation connection k) b.facility.facility = (answer, f)) :
    b.deliver connection k c = (answer.mapError (.classify connection k), { b with facility :=
      ⟨f, b.facility.notes ++ [.execute (c.operation connection k) (Recorded.refusal? answer)]⟩ }) := by
  rw [Bridge.deliver_asked hasked]
  simp [Bridge.ask, CloudFacility.executeTransfer, Recorded.noting, hcall]

/-- What a facility that records its calls notes of an exchange. -/
def note (r : Request) (x : Exchange) : Call.Note :=
  .execute (x.completion.operation r.connection r.transfer) (x.refusal.bind TransferError.status?)

/-- The exchanges that the facility was asked about are the calls that it has recorded. -/
theorem notes_send (r : Request) (plan : List Completion) (b : Bridge (Recorded σ)) :
    (send r plan b).2.facility.notes =
      b.facility.notes ++ ((exchanges (fun _ b => b) r plan b).filter Exchange.asked).map (note r) := by
  induction plan generalizing b with
  | nil => simp [send, exchanges]
  | cons c rest ih =>
    cases hasked : b.asks r.connection c with
    | false =>
      have hb := Bridge.deliver_not_asked (k := r.transfer) hasked
      cases h : b.deliver r.connection r.transfer c with
      | mk answer b' =>
        cases answer with
        | ok _ =>
          rw [Bridge.asked_of_deliver_ok (congrArg Prod.fst h)] at hasked
          cases hasked
        | error e =>
          rw [h] at hb
          simp [send, exchanges, exchange, Exchange.isAccepted, h, hb, hasked]
    | true =>
      cases hcall : CloudFacility.executeTransfer (c.operation r.connection r.transfer) b.facility.facility with
      | mk answer f =>
        cases answer with
        | ok u =>
          have hdeliver : b.deliver r.connection r.transfer c = (.ok u, _) := deliver_recorded hasked hcall
          simp [send, exchanges, exchange, Exchange.isAccepted, hdeliver, hasked, note, ih, Recorded.refusal?]
        | error s =>
          have hdeliver : b.deliver r.connection r.transfer c = (.error (.classify r.connection r.transfer s), _) :=
            deliver_recorded hasked hcall
          simp [send, exchanges, exchange, Exchange.isAccepted, hdeliver, hasked, note, Recorded.refusal?,
            status?_classify]

/-! ## The answer as a whole -/

theorem dvd_alignedChunk (size : Nat) : segmentAlignment ∣ alignedChunk size := by
  unfold alignedChunk
  rcases Nat.le_total (size / segmentAlignment * segmentAlignment) segmentAlignment with h | h
  · simp [Nat.max_eq_right h]
  · rw [Nat.max_eq_left h]
    exact Nat.dvd_mul_left ..

theorem notes_serve (size : Nat) (r : Request) (fetched : Fetched) (b : Bridge (Recorded σ)) :
    (serve (alignedChunk size) r fetched b).2.facility.notes =
      b.facility.notes ++ ((course (fun _ b => b) size r fetched b).filter Exchange.asked).map (note r) := by
  rw [serve, run_bridge]
  exact notes_send r _ b

/-- What is sent on an open connection is asked of the facility: segments end to end from the offset of the request on,
then one failure or nothing. All but the last of it is accepted. If the last is too, the segments hand over all that was
wanted, and the failure is there exactly if the source returned nothing or less than is owed. -/
theorem sent_tiles (config : PoolConfig) (fetched : Fetched) {others : Nat → Bridge (Recorded σ) → Bridge (Recorded σ)}
    {b : Bridge (Recorded σ)} (hfits : ((r.offset + r.length : Nat) : Int) ≤ Word.maxSigned)
    (hopen : b.live.isClosed r.connection = false)
    (hothers : ∀ n b, b.live.isClosed r.connection = false → (others n b).live.isClosed r.connection = false) :
    (0 < config.normalized.chunkSize ∧ segmentAlignment ∣ config.normalized.chunkSize) ∧
    (∀ x ∈ course others config.chunkSize r fetched b, x.asked = true) ∧
    (∀ x ∈ (course others config.chunkSize r fetched b).dropLast, x.isAccepted = true) ∧
    (∃ taken segs ending,
      (course others config.chunkSize r fetched b).map Exchange.completion = segs ++ ending ∧
      Tiles config.normalized.chunkSize r.offset taken segs ∧ taken <+: fetched.bytes.take r.length ∧
      (ending = [] ∨ ending = [.failure (r.offset + taken.length) fetched.failure]) ∧
      ((∀ x ∈ course others config.chunkSize r fetched b, x.isAccepted = true) →
        taken = fetched.bytes.take r.length ∧
        (ending ≠ [] ↔ fetched = .failed ∨ fetched = .timedOut ∨ fetched = .data [] ∨
          r.offset + taken.length < r.owedStop))) ∧
    (serve config.normalized.chunkSize r fetched b).2.facility.notes =
      b.facility.notes ++ (course (fun _ b => b) config.chunkSize r fetched b).map (note r) := by
  have hchunk : 0 < alignedChunk config.chunkSize := alignedChunk_pos _
  have hoffset : ∀ c ∈ Answer.plan (alignedChunk config.chunkSize) r fetched, (c.offset : Int) ≤ Word.maxSigned :=
    fun c hc => Int.le_trans (Int.ofNat_le.2 (offset_le_of_mem_plan hchunk hc)) hfits
  refine ⟨⟨hchunk, dvd_alignedChunk _⟩, fun x hx => asked_of_open hopen hothers hoffset hx,
    fun x hx => accepted_of_mem_dropLast hx, ?_, ?_⟩
  · obtain ⟨taken, segs, ending, hsent, htiles, hprefix, hending, hall⟩ := exists_taken hchunk others r fetched b
    refine ⟨taken, segs, ending, hsent, htiles, hprefix, hending.imp_right ?_, fun h => ?_⟩
    · rintro ⟨rfl, rfl⟩
      rfl
    · obtain ⟨rfl, hfailure⟩ := hall h
      exact ⟨rfl, hfailure.trans fallsShort_iff⟩
  · have hasked : ∀ x ∈ course (fun _ b => b) config.chunkSize r fetched b, x.asked = true :=
      fun x hx => asked_of_open hopen (fun _ _ h => h) hoffset hx
    refine (notes_serve config.chunkSize r fetched b).trans ?_
    rw [List.filter_eq_self.2 hasked]

/-- The transfer 1 of a file of ten bytes has been opened. -/
def tenBytes : Facility :=
  Facility.after [.register ⟨"/r"⟩ (.new "r" "1"), .connect ⟨"/r"⟩ none,
    .create ⟨"/r"⟩ (.of "a" (.ofText "o") 10 0 false), .begin ⟨"/r/a"⟩]

def allTen : Request := ⟨⟨0x1001⟩, ⟨1⟩, .ofText "o", 0, 10, 10, none⟩

/-- The source has five of the ten bytes: they are sent, and a failure after them. -/
theorem short_source_sent :
    ∃ segs, (course (fun _ b => b) 0 allTen (.data [1, 2, 3, 4, 5])
        (⟨⟨tenBytes, []⟩, .empty⟩ : Bridge (Recorded Facility))).map Exchange.completion =
          segs ++ [.failure 5 .failure] ∧
      Tiles segmentAlignment 0 [1, 2, 3, 4, 5] segs := by
  have hfits : ((allTen.offset + allTen.length : Nat) : Int) ≤ Word.maxSigned := by decide
  have hopen : (⟨⟨tenBytes, []⟩, .empty⟩ : Bridge (Recorded Facility)).live.isClosed allTen.connection = false := rfl
  obtain ⟨-, -, -, ⟨taken, segs, ending, hsent, htiles, -, hending, hall⟩, -⟩ :=
    sent_tiles ⟨1, 0, 0⟩ (.data [1, 2, 3, 4, 5]) hfits hopen fun _ _ h => h
  obtain ⟨rfl, hfailure⟩ := hall (by decide +kernel)
  obtain rfl := hending.resolve_left (hfailure.2 (.inr (.inr (.inr (by decide)))))
  exact ⟨segs, hsent, htiles⟩

/-! ## Alignment -/

/-- A segment sent for an aligned request starts at a multiple of the alignment. Unless it reaches beyond the file, its
length is one too, or it ends where the file does, or where the source's bytes do when these are fewer than asked for. -/
theorem segments_aligned (config : PoolConfig) (fetched : Fetched) (others : Nat → Bridge σ → Bridge σ) (b : Bridge σ)
    (hoffset : segmentAlignment ∣ r.offset) (hlength : segmentAlignment ∣ r.length ∨ r.stop = r.fileSize)
    (hx : x ∈ course others config.chunkSize r fetched b) {start : Nat} {piece : Bytes}
    (hdata : x.completion = .data start piece) :
    segmentAlignment ∣ start ∧
      (start + piece.length ≤ r.fileSize →
        segmentAlignment ∣ piece.length ∨ start + piece.length = r.fileSize ∨
          start + piece.length = r.offset + fetched.bytes.length ∧ fetched.bytes.length < r.length) := by
  have hchunk := dvd_alignedChunk config.chunkSize
  obtain ⟨n, hstart, hstop⟩ : ∃ n, start = r.offset + n * alignedChunk config.chunkSize ∧
      (piece.length = alignedChunk config.chunkSize ∨ start + piece.length = wantedStop r fetched) := by
    refine (tiles_segments (alignedChunk_pos _) r.offset (wanted r fetched)).exists_start ?_
    have hmem := (exchanges_prefix_plan others r _ b).mem (List.mem_map_of_mem hx)
    rw [hdata, plan_eq] at hmem
    refine (List.mem_append.1 hmem).resolve_right fun h => ?_
    split at h <;> simp at h
  refine ⟨hstart ▸ Nat.dvd_add hoffset (Nat.dvd_mul_left_of_dvd hchunk n), fun hwithin => ?_⟩
  rcases hstop with hfull | hstop
  · exact .inl (hfull ▸ hchunk)
  have hwanted : wantedStop r fetched = r.offset + min r.length fetched.bytes.length := by
    rw [wantedStop, wanted, List.length_take]
  -- The last segment ends where the wanted bytes do.
  by_cases hshort : fetched.bytes.length < r.length
  · exact .inr (.inr ⟨by omega, hshort⟩)
  rcases hlength with hlength | hlength
  · refine .inl ((Nat.dvd_add_right (Nat.dvd_mul_left_of_dvd hchunk n)).1 ?_)
    rwa [show n * alignedChunk config.chunkSize + piece.length = r.length by omega]
  · refine .inr (.inl ?_)
    simp only [Request.stop, Word.addCapped] at hlength
    omega

/-- All ten bytes are sent as one segment, which ends with the file. -/
theorem whole_source_aligned :
    ∃ x ∈ course (fun _ b => b) 0 allTen (.data [1, 2, 3, 4, 5, 6, 7, 8, 9, 10]) (⟨tenBytes, .empty⟩ : Bridge Facility),
      ∃ start piece, x.completion = .data start piece ∧ segmentAlignment ∣ start ∧
        start + piece.length = allTen.fileSize := by
  have hsent : ⟨.data 0 [1, 2, 3, 4, 5, 6, 7, 8, 9, 10], true, none⟩ ∈ course (fun _ b => b) 0 allTen
      (.data [1, 2, 3, 4, 5, 6, 7, 8, 9, 10]) (⟨tenBytes, .empty⟩ : Bridge Facility) := by
    decide +kernel
  obtain ⟨hstart, hstop⟩ := segments_aligned ⟨1, 0, 0⟩ _ _ _ (by decide) (.inr (by decide)) hsent rfl
  rcases hstop (by decide) with h | h | ⟨-, h⟩
  · exact absurd h (by decide)
  · exact ⟨_, hsent, 0, _, rfl, hstart, h⟩
  · exact absurd h (by decide)

/-- Five of ten bytes are sent as they are, and end neither at a multiple of the alignment nor with the file. -/
theorem short_source_not_aligned :
    segmentAlignment ∣ allTen.offset ∧ allTen.stop = allTen.fileSize ∧
      course (fun _ b => b) 0 allTen (.data [1, 2, 3, 4, 5]) (⟨tenBytes, .empty⟩ : Bridge Facility) =
        [⟨.data 0 [1, 2, 3, 4, 5], true, none⟩, ⟨.failure 5 .failure, true, none⟩] ∧
      ¬(segmentAlignment ∣ 5 ∨ 0 + 5 = allTen.fileSize) := by
  exact ⟨by decide, by decide, by decide +kernel, by decide⟩

end Answer

end OnDemand
