import OnDemand.Hydration.Answer
import OnDemand.Proofs.Store.Reading

/-!
# What is sent for a request

The segments of a plan are consecutive pieces of the bytes that were fetched, and leave nothing out. From an object
that is long enough, the plan is the whole of the requested range and no failure.
-/

namespace OnDemand

/-- `c` is data that `content` has at the same place. -/
def Completion.PieceOf (content : Bytes) : Completion → Prop
  | .data offset bytes => offset + bytes.length ≤ content.length ∧ ∀ j < bytes.length, bytes[j]? = content[offset + j]?
  | .failure _ _ => False

/-- `c` is data with a byte for position `i`. -/
def Completion.Covers (i : Nat) : Completion → Prop
  | .data offset bytes => offset ≤ i ∧ i < offset + bytes.length
  | .failure _ _ => False

/-- The bytes that the source returned, if it returned any. -/
def Fetched.bytes : Fetched → Bytes
  | .data bytes => bytes
  | .failed | .timedOut => []

/-- The status of a failure that is sent because of what the source returned. -/
def Fetched.failure : Fetched → Status
  | .timedOut => .ioTimeout
  | .data _ | .failed => .failure

namespace Answer

section Bridge

variable {σ : Type} [CloudFacility σ]

theorem run_bridge (r : Request) (plan : List Completion) (b : Bridge σ) : (run r plan b).2 = (send r plan b).2 := by
  simp only [run]
  split <;> simp_all

theorem send_singleton (r : Request) (c : Completion) (b : Bridge σ) :
    (send r [c] b).2 = (b.deliver r.connection r.transfer c).2 := by
  cases h : b.deliver r.connection r.transfer c with
  | mk answer b' => cases answer <;> simp [send, h]

theorem refuse_bridge (r : Request) (b : Bridge σ) :
    (refuse r b).2 = (b.deliver r.connection r.transfer (.failure r.offset .providerNotRunning)).2 := by
  rw [refuse, run_bridge, send_singleton]

end Bridge

variable {chunk offset : Nat} {bytes content : Bytes}

theorem segments_nil (chunk offset : Nat) : segments chunk offset [] = [] := by
  unfold segments
  rw [dif_pos (.inr rfl)]

theorem segments_cons (hchunk : 0 < chunk) (offset : Nat) (hne : bytes ≠ []) :
    segments chunk offset bytes = .data offset (bytes.take chunk) :: segments chunk (offset + chunk) (bytes.drop chunk) := by
  rw [segments, dif_neg]
  exact fun h => h.elim (Nat.ne_of_gt hchunk) hne

/-! ## The plan as a whole -/

/-- What the source returned, as far as `r` asked for it. -/
def wanted (r : Request) (fetched : Fetched) : Bytes := fetched.bytes.take r.length

/-- Where the wanted bytes end. -/
def wantedStop (r : Request) (fetched : Fetched) : Nat := r.offset + (wanted r fetched).length

/-- The source returned nothing, or less than is owed. -/
def FallsShort (r : Request) (fetched : Fetched) : Prop := fetched.bytes = [] ∨ wantedStop r fetched < r.owedStop

instance (r : Request) (fetched : Fetched) : Decidable (FallsShort r fetched) := inferInstanceAs (Decidable (_ ∨ _))

/-- A plan is the wanted bytes in segments, and a failure at their end if the source falls short. -/
theorem plan_eq (chunk : Nat) (r : Request) (fetched : Fetched) :
    plan chunk r fetched = segments chunk r.offset (wanted r fetched) ++
      if FallsShort r fetched then [.failure (wantedStop r fetched) fetched.failure] else [] := by
  match fetched with
  | .failed | .timedOut | .data [] =>
    simp [plan, wanted, wantedStop, FallsShort, Fetched.bytes, Fetched.failure, segments_nil]
  | .data (byte :: bytes) => simp [plan, shortfall, wanted, wantedStop, FallsShort, Fetched.bytes, Fetched.failure]

theorem bytes_eq_nil_iff {fetched : Fetched} :
    fetched.bytes = [] ↔ fetched = .failed ∨ fetched = .timedOut ∨ fetched = .data [] := by
  cases fetched <;> simp [Fetched.bytes]

theorem fallsShort_iff {r : Request} {fetched : Fetched} :
    FallsShort r fetched ↔
      fetched = .failed ∨ fetched = .timedOut ∨ fetched = .data [] ∨ wantedStop r fetched < r.owedStop := by
  simp only [FallsShort, bytes_eq_nil_iff, or_assoc]

/-! ## Plans that are data only -/

theorem pieceOf_of_mem_segments (hfits : offset + bytes.length ≤ content.length)
    (hbytes : ∀ j < bytes.length, bytes[j]? = content[offset + j]?) {c : Completion}
    (hc : c ∈ segments chunk offset bytes) : c.PieceOf content ∧ offset ≤ c.offset ∧ c.offset < offset + bytes.length := by
  fun_induction segments chunk offset bytes with
  | case1 offset bytes h => cases hc
  | case2 offset bytes h ih =>
    have hne : bytes ≠ [] := fun he => h (.inr he)
    have hpos : 0 < bytes.length := List.length_pos_iff.2 hne
    have hchunk : 0 < chunk := Nat.pos_of_ne_zero fun he => h (.inl he)
    rcases List.mem_cons.1 hc with rfl | hc
    · refine ⟨⟨?_, fun j hj => ?_⟩, Nat.le_refl _, ?_⟩
      · rw [List.length_take]
        omega
      · rw [List.length_take] at hj
        rw [List.getElem?_take_of_lt (by omega)]
        exact hbytes j (by omega)
      · exact Nat.lt_add_of_pos_right hpos
    · by_cases hlong : bytes.length ≤ chunk
      · rw [List.drop_of_length_le hlong, segments_nil] at hc
        cases hc
      · have hdrop : ∀ j < (bytes.drop chunk).length, (bytes.drop chunk)[j]? = content[offset + chunk + j]? := by
          intro j hj
          rw [List.length_drop] at hj
          rw [List.getElem?_drop, hbytes _ (by omega), Nat.add_assoc]
        obtain ⟨hpiece, hlo, hhi⟩ := ih (by rw [List.length_drop]; omega) hdrop hc
        rw [List.length_drop] at hhi
        exact ⟨hpiece, by omega, by omega⟩

theorem exists_covers_segments (hchunk : 0 < chunk) {i : Nat} (hlo : offset ≤ i) (hhi : i < offset + bytes.length) :
    ∃ c ∈ segments chunk offset bytes, c.Covers i := by
  fun_induction segments chunk offset bytes with
  | case1 offset bytes h =>
    rcases h with h | h
    · omega
    · simp [h] at hhi
      omega
  | case2 offset bytes h ih =>
    by_cases hi : i < offset + chunk
    · refine ⟨_, List.mem_cons_self, hlo, ?_⟩
      rw [List.length_take]
      omega
    · obtain ⟨c, hc, hcovers⟩ := ih (by omega) (by rw [List.length_drop]; omega)
      exact ⟨c, List.mem_cons_of_mem _ hc, hcovers⟩

/-- `r` asks for at least one byte and for none beyond the `length` bytes of its file. -/
structure Fits (length : Nat) (r : Request) : Prop where
  fileSize : r.fileSize = length
  nonempty : 1 ≤ r.length
  within : r.offset + r.length ≤ length

/-- The plan for bytes that are the whole of the requested range: they are sent in pieces, and nothing else is. -/
theorem plan_data {length : Nat} {r : Request} (hr : Fits length r) (hlength : (length : Int) ≤ Word.maxSigned)
    (hbytes : bytes.length = r.length) : plan chunk r (.data bytes) = segments chunk r.offset bytes := by
  have hne : bytes ≠ [] := by
    rintro rfl
    have hnonempty := hr.nonempty
    simp only [List.length_nil] at hbytes
    omega
  have htake : bytes.take r.length = bytes := List.take_of_length_le (by omega)
  have howed : ¬r.offset + bytes.length < r.owedStop := by
    have hfileSize := hr.fileSize
    have hwithin := hr.within
    simp only [Word.maxSigned] at hlength
    simp only [Request.owedStop, Request.stop, Word.addCapped, Word.maxUnsigned]
    omega
  cases hcases : bytes with
  | nil => exact absurd hcases hne
  | cons b rest =>
    simp only [plan, ← hcases, htake, shortfall, if_neg howed, List.append_nil]

end Answer

/-! ## Objects -/

/-- What a request is answered with from the store. -/
def ObjectStore.fetched (store : ObjectStore) (r : Request) : Fetched :=
  match store.contentRange r.identity r.offset r.length with
  | .ok bytes => .data bytes
  | .error _ => .failed

section

variable {store : ObjectStore} {object : String} {content : Bytes} {length chunk : Nat} {r : Request}

theorem Answer.plan_fetched (h : store.Holds object content) (hidentity : r.identity.text? = some object)
    (hr : Fits length r) (hlength : (length : Int) ≤ Word.maxSigned) (hcontent : length ≤ content.length) :
    plan chunk r (store.fetched r) = segments chunk r.offset (content.window r.offset r.length) := by
  have hwithin := hr.within
  have hword : r.offset + r.length ≤ Word.maxUnsigned := by
    simp only [Word.maxSigned, Word.maxUnsigned] at hlength ⊢
    omega
  rw [ObjectStore.fetched, h.contentRange hidentity (.inl hword)]
  refine plan_data hr hlength ?_
  rw [Bytes.length_window]
  omega

theorem Answer.getElem?_window (hr : Fits length r) {j : Nat} (hj : j < r.length) :
    (content.window r.offset r.length)[j]? = (content.take length)[r.offset + j]? := by
  have hwithin := hr.within
  rw [Bytes.window, List.getElem?_take_of_lt hj, List.getElem?_drop, List.getElem?_take_of_lt (by omega)]

/-- A request served from the store is sent pieces of the file only. -/
theorem Answer.pieceOf_of_mem_plan (h : store.Holds object content) (hidentity : r.identity.text? = some object)
    (hr : Fits length r) (hlength : (length : Int) ≤ Word.maxSigned) (hcontent : length ≤ content.length) {c : Completion}
    (hc : c ∈ plan chunk r (store.fetched r)) : c.PieceOf (content.take length) := by
  have hwithin := hr.within
  rw [plan_fetched h hidentity hr hlength hcontent] at hc
  refine (pieceOf_of_mem_segments ?_ (fun j hj => getElem?_window hr ?_) hc).1
  · rw [Bytes.length_window, List.length_take]
    omega
  · rw [Bytes.length_window] at hj
    omega

/-- A request served from the store is sent every byte that it asks for. -/
theorem Answer.exists_covers_plan (h : store.Holds object content) (hidentity : r.identity.text? = some object)
    (hr : Fits length r) (hlength : (length : Int) ≤ Word.maxSigned) (hcontent : length ≤ content.length)
    (hchunk : 0 < chunk) {i : Nat} (hlo : r.offset ≤ i) (hhi : i < r.offset + r.length) :
    ∃ c ∈ plan chunk r (store.fetched r), c.Covers i := by
  have hwithin := hr.within
  rw [plan_fetched h hidentity hr hlength hcontent]
  refine exists_covers_segments hchunk hlo ?_
  rw [Bytes.length_window]
  omega

end

end OnDemand
