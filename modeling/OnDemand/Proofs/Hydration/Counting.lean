import OnDemand.Proofs.Facility.Run
import OnDemand.Proofs.Hydration.Ledger

/-!
# What the counters count

Beside a channel and its pool stand the moves so far and what has come of each request: an answer that was accepted, a
failure that was, or a refusal. The counters are the numbers of these, and callbacks that take a request back are only
counted.
-/

namespace OnDemand

/-- The counters without the callbacks that take requests back. -/
def Counters.uncancelled (c : Counters) : Counters := { c with cancelled := 0 }

/-- The counters once an answer has ended as `o` says, if one has. -/
def Counters.note (c : Counters) (o : Option Conclusion) : Counters := o.elim c c.conclude

namespace Hydration

variable {σ : Type} {h h' : Hydration σ} {m : Move} {ms : List Move} {l : Ledger} {capacity : Nat} {config : PoolConfig}

/-! ## What has come of each request -/

/-- The request with this number has been answered, or its answer was refused. -/
structure Outcome where
  number : Nat
  conclusion : Conclusion
deriving DecidableEq, Repr

variable {os : List Outcome} {c : Counters}

def Move.isCancel : Move → Bool
  | .cancel _ => true
  | _ => false

/-- What comes of a request in the move `m` from `h`: of one that finds no room, of the oldest one that waits, or of the
one that a job serves. -/
def outcome? [CloudFacility σ] (h : Hydration σ) (l : Ledger) : Move → Option Outcome
  | .fetch info =>
    if (h.channel.offer (.ofFetch info)).1 then none
    else some ⟨l.arrived.length, (Answer.refuse (.ofFetch info) h.bridge).1⟩
  | .drain => l.waiting.head?.map fun e => ⟨e.number, (Answer.refuse e.request h.bridge).1⟩
  | .finish n fetched =>
    l.served[n]?.map fun e => ⟨e.number, (Answer.serve h.pool.config.chunkSize e.request fetched h.bridge).1⟩
  | _ => none

/-- The states that a channel of `capacity` and a pool with `config` come to by the moves `ms`, with their ledgers and
what has come of the requests, in this order. -/
inductive Course [CloudFacility σ] (capacity : Nat) (config : PoolConfig) :
    List Move → Hydration σ → Ledger → List Outcome → Prop where
  | start (b : Bridge σ) : Course capacity config [] ⟨b, .create capacity, .create config⟩ .empty []
  | move {ms : List Move} {h h' : Hydration σ} {l : Ledger} {os : List Outcome} {m : Move}
      (hc : Course capacity config ms h l os) (hm : h.move? m = some h') :
      Course capacity config (ms ++ [m]) h' (l.next h m) (os ++ (h.outcome? l m).toList)
  /-- Other parts of the program do something to the bridge. -/
  | elsewhere {ms : List Move} {h : Hydration σ} {l : Ledger} {os : List Outcome}
      (hc : Course capacity config ms h l os) (b : Bridge σ) : Course capacity config ms { h with bridge := b } l os

theorem Course.reaches [CloudFacility σ] (hc : Course capacity config ms h l os) : Reaches capacity config h l := by
  induction hc with
  | start b => exact .start b
  | move _ hm ih => exact ih.move hm
  | elsewhere _ b ih => exact ih.elsewhere b

/-! ## The counters as numbers of outcomes -/

/-- The counters tell how many outcomes of each kind there have been. -/
structure Counts (os : List Outcome) (c : Counters) : Prop where
  answered : c.answered = os.countP fun o => o.conclusion ≠ .abandoned
  failed : c.failed = os.countP fun o => o.conclusion = .failed
  abandoned : c.abandoned = os.countP fun o => o.conclusion = .abandoned

theorem Counts.conclude (hc : Counts os c) (n : Nat) (x : Conclusion) : Counts (os ++ [⟨n, x⟩]) (c.conclude x) := by
  obtain ⟨hanswered, hfailed, habandoned⟩ := hc
  cases x <;> constructor <;> simp [Counters.conclude, List.countP_append, hanswered, hfailed, habandoned]

theorem Counts.failed_le (hc : Counts os c) : c.failed ≤ c.answered := by
  rw [hc.failed, hc.answered]
  refine List.countP_mono_left fun o _ ho => ?_
  simp only [decide_eq_true_eq] at ho ⊢
  rw [ho]
  decide

theorem cancelled_conclude (c : Counters) (x : Conclusion) : (c.conclude x).cancelled = c.cancelled := by
  cases x <;> rfl

/-- A refused request is failed or given up, and both are counted. -/
theorem rejected_le_conclude {r : Request} {b : Bridge σ} [CloudFacility σ] (hle : c.rejected ≤ c.failed + c.abandoned) :
    (c.reject.conclude (Answer.refuse r b).1).rejected ≤
      (c.reject.conclude (Answer.refuse r b).1).failed + (c.reject.conclude (Answer.refuse r b).1).abandoned := by
  have hne : (Answer.refuse r b).1 ≠ .answered := by
    unfold Answer.refuse Answer.run
    split <;> simp [Answer.endsInFailure]
  cases hx : (Answer.refuse r b).1 with
  | answered => exact absurd hx hne
  | failed | abandoned =>
    simp only [Counters.reject, Counters.conclude]
    omega

theorem rejected_le_conclude_of_le (hle : c.rejected ≤ c.failed + c.abandoned) (x : Conclusion) :
    (c.conclude x).rejected ≤ (c.conclude x).failed + (c.conclude x).abandoned := by
  cases x <;> simp only [Counters.conclude] <;> omega

/-! ## Every request comes to one outcome -/

/-- The numbers of the requests being served. -/
def inService (h : Hydration σ) (l : Ledger) : List Nat :=
  h.pool.jobs.filterMap fun job => (l.served[job.number]?).map Arrival.number

/-- Each request that has arrived has come to one outcome, waits or is being served, and the counters count the outcomes. -/
structure Counted (ms : List Move) (h : Hydration σ) (l : Ledger) (os : List Outcome) : Prop where
  numbers : (os.map Outcome.number ++ (l.waiting.map Arrival.number ++ inService h l)).Perm (List.range l.arrived.length)
  counts : Counts os h.channel.counters
  rejected : h.channel.counters.rejected ≤ h.channel.counters.failed + h.channel.counters.abandoned
  cancelled : h.channel.counters.cancelled = ms.countP Move.isCancel

theorem counted_start (b : Bridge σ) :
    Counted [] (⟨b, .create capacity, .create config⟩ : Hydration σ) .empty [] :=
  ⟨.refl _, ⟨rfl, rfl, rfl⟩, Nat.le_refl _, rfl⟩

theorem Balanced.job_lt (hb : Balanced capacity config h l) {job : Job} (hjob : job ∈ h.pool.jobs) :
    job.number < l.served.length := by
  obtain ⟨e, he, -⟩ := Option.map_eq_some_iff.1 (hb.jobs job hjob)
  exact (List.getElem?_eq_some_iff.1 he).1

/-- A request taken out of the queue is being served from then on. -/
theorem Balanced.inService_receive (hb : Balanced capacity config h l) (e : Arrival) {jobs : List Job}
    (hjobs : jobs = h.pool.jobs ++ [⟨h.pool.nextJob, e.request⟩]) :
    (jobs.filterMap fun job => ((l.served ++ [e])[job.number]?).map Arrival.number) = inService h l ++ [e.number] := by
  have hold : (h.pool.jobs.filterMap fun job => ((l.served ++ [e])[job.number]?).map Arrival.number) = inService h l :=
    List.filterMap_congr fun job hjob => by rw [List.getElem?_append_left (hb.job_lt hjob)]
  rw [hjobs, List.filterMap_append, hold]
  simp [hb.next]

/-- A request that a job has answered is not being served any more. -/
theorem Balanced.inService_finish (hb : Balanced capacity config h l) {job : Job} (hjob : job ∈ h.pool.jobs) {e : Arrival}
    (he : l.served[job.number]? = some e) :
    (inService h l).Perm (e.number :: (h.pool.jobs.filter (·.number ≠ job.number)).filterMap
      fun job => (l.served[job.number]?).map Arrival.number) := by
  have hperm := (perm_filter_job hb.distinct hjob).filterMap fun job => (l.served[job.number]?).map Arrival.number
  rwa [List.filterMap_cons, he] at hperm

theorem Counted.move [CloudFacility σ] (hb : Balanced capacity config h l) (hc : Counted ms h l os)
    (hm : h.move? m = some h') : Counted (ms ++ [m]) h' (l.next h m) (os ++ (h.outcome? l m).toList) := by
  obtain ⟨hnumbers, hcounts, hrejected, hcancelled⟩ := hc
  have hother : m.isCancel = false → ms.countP Move.isCancel = (ms ++ [m]).countP Move.isCancel := fun hm => by
    simp [List.countP_append, hm]
  cases step_of_move? hm with
  | accepted info ha =>
    simp only [Ledger.next, outcome?, offer_of_accepts ha, if_true, Option.toList_none, List.append_nil]
    refine ⟨List.perm_iff_count.2 fun n => ?_, ⟨hcounts.answered, hcounts.failed, hcounts.abandoned⟩, hrejected,
      hcancelled.trans (hother rfl)⟩
    have hn := hnumbers.count_eq n
    simp only [List.length_append, List.length_singleton, List.range_succ, List.map_append, List.map_cons, List.map_nil,
      List.count_append, inService] at hn ⊢
    omega
  | refused info ha =>
    simp only [Ledger.next, outcome?, offer_of_not_accepts ha, Bool.false_eq_true, if_false, Option.toList_some]
    have hcounts' : Counts os h.channel.counters.arrive.reject := ⟨hcounts.answered, hcounts.failed, hcounts.abandoned⟩
    refine ⟨List.perm_iff_count.2 fun n => ?_, hcounts'.conclude _ _, rejected_le_conclude (c := h.channel.counters.arrive)
      hrejected, (cancelled_conclude ..).trans (hcancelled.trans (hother rfl))⟩
    have hn := hnumbers.count_eq n
    simp only [List.length_append, List.length_singleton, List.range_succ, List.map_append, List.map_cons, List.map_nil,
      List.count_append, inService] at hn ⊢
    omega
  | cancelled info =>
    refine ⟨by simpa [outcome?, Ledger.next, inService] using hnumbers, ?_, hrejected, ?_⟩
    · simpa [outcome?] using (⟨hcounts.answered, hcounts.failed, hcounts.abandoned⟩ : Counts os h.channel.counters.cancel)
    · simp [Counters.cancel, hcancelled, List.countP_append, Move.isCancel]
  | received hstage hq =>
    obtain ⟨e, waiting, hwaiting, rfl, -⟩ := hb.oldest hq
    simp only [Ledger.next, outcome?, Option.toList_none, List.append_nil]
    refine ⟨List.perm_iff_count.2 fun n => ?_, hcounts, hrejected, hcancelled.trans (hother rfl)⟩
    have hn := hnumbers.count_eq n
    rw [hwaiting, List.map_cons, List.cons_append, ← List.singleton_append] at hn
    have hservice := hb.inService_receive e rfl
    simp only [inService, hwaiting, List.take_succ_cons, List.take_zero, List.drop_succ_cons, List.drop_zero,
      List.count_append] at hn hservice ⊢
    rw [hservice, List.count_append]
    omega
  | drained hstage hq =>
    obtain ⟨e, waiting, hwaiting, rfl, -⟩ := hb.oldest hq
    simp only [Ledger.next, outcome?, hwaiting, List.head?_cons, Option.map_some, Option.toList_some]
    refine ⟨List.perm_iff_count.2 fun n => ?_, hcounts.conclude _ _, rejected_le_conclude_of_le hrejected _,
      (cancelled_conclude ..).trans (hcancelled.trans (hother rfl))⟩
    have hn := hnumbers.count_eq n
    rw [hwaiting, List.map_cons, List.cons_append, ← List.singleton_append] at hn
    simp only [inService, List.map_append, List.map_cons, List.map_nil, List.drop_succ_cons, List.drop_zero,
      List.count_append] at hn ⊢
    omega
  | @finished job fetched hjob =>
    obtain ⟨e, he, hrequest⟩ := Option.map_eq_some_iff.1 (hb.jobs job hjob)
    simp only [Ledger.next, outcome?, he, Option.map_some, Option.toList_some, hrequest]
    refine ⟨List.perm_iff_count.2 fun n => ?_, hcounts.conclude _ _, rejected_le_conclude_of_le hrejected _,
      (cancelled_conclude ..).trans (hcancelled.trans (hother rfl))⟩
    have hn := hnumbers.count_eq n
    have hservice := (hb.inService_finish hjob he).count_eq n
    rw [← List.singleton_append] at hservice
    simp only [inService, List.map_append, List.map_cons, List.map_nil, List.count_append] at hn hservice ⊢
    omega
  | _ =>
    simp only [Ledger.next, outcome?, Option.toList_none, List.append_nil]
    exact ⟨hnumbers, hcounts, hrejected, hcancelled.trans (hother rfl)⟩

theorem Course.counted [CloudFacility σ] (hc : Course capacity config ms h l os) : Counted ms h l os := by
  induction hc with
  | start b => exact counted_start b
  | move hc hm ih => exact ih.move (balanced_of_reaches hc.reaches) hm
  | elsewhere _ b ih => exact ⟨ih.numbers, ih.counts, ih.rejected, ih.cancelled⟩

/-! ## Other counters -/

/-- The channel and its pool, with the counters `c`. -/
def recount (c : Counters) (h : Hydration σ) : Hydration σ := { h with channel := { h.channel with counters := c } }

/-- A move of the pool goes the same way whatever has been counted, and counts at most how one answer ended. -/
theorem move?_recount [CloudFacility σ] (hm : h.move? m = some h') (hfetch : ∀ info, m ≠ .fetch info)
    (hcancel : m.isCancel = false) :
    ∃ o : Option Conclusion, ∀ c, (h.recount c).move? m = some (h'.recount (c.note o)) := by
  cases m with
  | fetch info => exact absurd rfl (hfetch info)
  | cancel info => cases hcancel
  | hangUp | shutdown =>
    obtain rfl := Option.some.inj hm
    exact ⟨none, fun c => rfl⟩
  | acquire | stopIntake | settle | leave =>
    simp only [move?, acquire?, stopIntake?, settle?, leave?, Option.ite_none_right_eq_some, Option.some.injEq] at hm ⊢
    obtain ⟨hcan, rfl⟩ := hm
    exact ⟨none, fun c => ⟨hcan, rfl⟩⟩
  | receive =>
    simp only [move?, receive?, Option.ite_none_right_eq_some, Option.map_eq_some_iff, Prod.exists] at hm ⊢
    obtain ⟨hcan, r, d, htake, rfl⟩ := hm
    obtain ⟨rest, hq, rfl⟩ := take?_eq_some.1 htake
    exact ⟨none, fun c => ⟨hcan, r, _, take?_eq_some.2 ⟨rest, hq, rfl⟩, rfl⟩⟩
  | drain =>
    simp only [move?, drain?, Option.ite_none_right_eq_some, Option.map_eq_some_iff, Prod.exists] at hm ⊢
    obtain ⟨hstage, r, d, htake, rfl⟩ := hm
    obtain ⟨rest, hq, rfl⟩ := take?_eq_some.1 htake
    exact ⟨some (Answer.refuse r h.bridge).1, fun c => ⟨hstage, r, _, take?_eq_some.2 ⟨rest, hq, rfl⟩, rfl⟩⟩
  | finish number fetched =>
    simp only [move?, finish?, Option.map_eq_some_iff] at hm ⊢
    obtain ⟨job, hjob, rfl⟩ := hm
    exact ⟨some (Answer.serve h.pool.config.chunkSize job.request fetched h.bridge).1, fun c => ⟨job, hjob, rfl⟩⟩

theorem counters_of_recount [CloudFacility σ] {o : Option Conclusion} (hm : h.move? m = some h')
    (ho : ∀ c, (h.recount c).move? m = some (h'.recount (c.note o))) :
    h'.channel.counters = h.channel.counters.note o :=
  congrArg (fun h : Hydration σ => h.channel.counters) (Option.some.inj (hm.symm.trans (ho h.channel.counters)))

/-! ## Requests taken back -/

/-- The state as it would be if no request had been taken back. -/
def uncancelled (h : Hydration σ) : Hydration σ :=
  { h with channel := { h.channel with counters := h.channel.counters.uncancelled } }

theorem offer_uncancelled (h : Hydration σ) (r : Request) :
    (h.uncancelled.channel.offer r).1 = (h.channel.offer r).1 := by
  by_cases ha : Accepts h.channel
  · rw [offer_of_accepts ha, offer_of_accepts (c := h.uncancelled.channel) ha]
  · rw [offer_of_not_accepts ha, offer_of_not_accepts (c := h.uncancelled.channel) ha]

theorem next_uncancelled (h : Hydration σ) (l : Ledger) (m : Move) : l.next h.uncancelled m = l.next h m := by
  cases m with
  | fetch info => simp only [Ledger.next, offer_uncancelled]
  | _ => rfl

variable [CloudFacility σ]

theorem outcome?_uncancelled (h : Hydration σ) (l : Ledger) (m : Move) : h.uncancelled.outcome? l m = h.outcome? l m := by
  cases m with
  | fetch info =>
    simp only [outcome?, offer_uncancelled]
    rfl
  | _ => rfl

theorem uncancelled_note (c : Counters) (o : Option Conclusion) : (c.note o).uncancelled = c.uncancelled.note o := by
  rcases o with - | x
  · rfl
  · cases x <;> rfl

theorem move?_uncancelled (hm : h.move? m = some h') (hnot : m.isCancel = false) :
    h.uncancelled.move? m = some h'.uncancelled := by
  by_cases hfetch : ∃ info, m = .fetch info
  · obtain ⟨info, rfl⟩ := hfetch
    by_cases ha : Accepts h.channel
    · obtain rfl := Option.some.inj ((move?_fetch_of_accepts ha).symm.trans hm)
      have ha' : Accepts h.uncancelled.channel := ha
      exact move?_fetch_of_accepts ha'
    · obtain rfl := Option.some.inj ((move?_fetch_of_not_accepts ha).symm.trans hm)
      have ha' : ¬Accepts h.uncancelled.channel := ha
      rw [move?_fetch_of_not_accepts ha', show h.uncancelled.bridge = h.bridge from rfl]
      cases (Answer.refuse (.ofFetch info) h.bridge).1 <;> rfl
  · obtain ⟨o, ho⟩ := move?_recount hm (fun info he => hfetch ⟨info, he⟩) hnot
    have hcounters := counters_of_recount hm ho
    rw [uncancelled, uncancelled, hcounters, uncancelled_note]
    exact ho h.channel.counters.uncancelled

theorem Course.uncancelled (hc : Course capacity config ms h l os) :
    Course capacity config (ms.filter fun m => !m.isCancel) h.uncancelled l os := by
  induction hc with
  | start b => exact .start b
  | @move ms h h' l os m hc hm ih =>
    rw [List.filter_append]
    cases hcancel : m.isCancel with
    | true =>
      cases m with
      | cancel info =>
        obtain rfl := Option.some.inj hm
        rw [List.filter_singleton, hcancel, Bool.not_true, cond_false, List.append_nil]
        simp only [outcome?, Option.toList_none, List.append_nil]
        exact ih
      | _ => cases hcancel
    | false =>
      have hmove := ih.move (move?_uncancelled hm hcancel)
      rw [next_uncancelled, outcome?_uncancelled] at hmove
      simpa [hcancel] using hmove
  | elsewhere _ b ih => exact ih.elsewhere b

/-! ## The whole -/

omit [CloudFacility σ] in
theorem Balanced.arrived_eq (hb : Balanced capacity config h l) :
    h.channel.counters.arrived = h.channel.counters.dispatched + h.channel.counters.rejected ∧
      h.channel.counters.arrived =
        h.channel.counters.answered + h.channel.counters.abandoned + h.channel.queue.length + h.pool.jobs.length := by
  have hlength := hb.numbers.length_eq
  have hdispatches := hb.dispatches
  have hqueue := congrArg List.length hb.queue
  simp only [List.length_map, List.length_append, List.length_range, Ledger.accepted] at hlength hdispatches hqueue
  have harrivals := hb.arrivals
  have hrejections := hb.rejections
  have hconclusions := hb.conclusions
  omega

/-- In every order of the moves: every request that has arrived was dispatched or rejected, and has been answered or given
up, waits or is being served; failures are answers, and a rejection is a failure or given up; the callbacks that take
requests back are counted, and without them everything else would be the same; and the answers and the requests given up
are the outcomes of different requests, one for each that neither waits nor is being served. -/
theorem counters_conserved (hc : Course capacity config ms h l os) :
    h.channel.counters.arrived = h.channel.counters.dispatched + h.channel.counters.rejected ∧
    h.channel.counters.arrived =
      h.channel.counters.answered + h.channel.counters.abandoned + h.channel.queue.length + h.pool.jobs.length ∧
    h.channel.counters.failed ≤ h.channel.counters.answered ∧
    h.channel.counters.rejected ≤ h.channel.counters.failed + h.channel.counters.abandoned ∧
    h.channel.counters.cancelled = ms.countP Move.isCancel ∧
    Course capacity config (ms.filter fun m => !m.isCancel) h.uncancelled l os ∧
    (os.map Outcome.number ++ (l.waiting.map Arrival.number ++ inService h l)).Perm
      (List.range h.channel.counters.arrived) ∧
    Counts os h.channel.counters := by
  have hb := balanced_of_reaches hc.reaches
  have hcounted := hc.counted
  refine ⟨hb.arrived_eq.1, hb.arrived_eq.2, hcounted.counts.failed_le, hcounted.rejected, hcounted.cancelled,
    hc.uncancelled, ?_, hcounted.counts⟩
  rw [hb.arrivals]
  exact hcounted.numbers

/-- A file of two bytes waits for its content. -/
def fileWaiting : Facility :=
  .after [.register ⟨"/r"⟩ (.new "r" "1"), .connect ⟨"/r"⟩ none, .create ⟨"/r"⟩ (.of "a" (.ofText "o") 2 0 false),
    .begin ⟨"/r/a"⟩]

/-- With room for one request: the first one is taken back and answered all the same, the second one finds no room and its
transfer is unknown. -/
theorem counters_conserved_takenBack :
    ∃ (ms : List Move) (h : Hydration Facility) (l : Ledger) (os : List Outcome),
      Course 1 ⟨1, 4096, 1000⟩ ms h l os ∧ os = [⟨1, .abandoned⟩, ⟨0, .answered⟩] ∧
      h.channel.counters = ⟨2, 1, 1, 1, 0, 1, 1⟩ ∧ h.channel.counters.cancelled = ms.countP Move.isCancel ∧
      h.channel.counters.rejected ≤ h.channel.counters.failed + h.channel.counters.abandoned := by
  have hc : Course 1 ⟨1, 4096, 1000⟩ []
    (⟨.ofFacility fileWaiting, .create 1, .create ⟨1, 4096, 1000⟩⟩ : Hydration Facility) .empty [] := .start _
  have hc := hc.move (m := .fetch ⟨⟨0x1001⟩, ⟨1⟩, [111], 0, 2, 2, none⟩) rfl
  have hc := hc.move (m := .cancel ⟨⟨0x1001⟩, ⟨1⟩, [111], 0, 2⟩) rfl
  have hc := hc.move (m := .fetch ⟨⟨0x1001⟩, ⟨2⟩, [111], 0, 2, 2, none⟩) rfl
  have hc := ((hc.move (m := .acquire) rfl).move (m := .receive) rfl).move (m := .finish 0 (.data [1, 2])) rfl
  obtain ⟨-, -, -, hrejected, hcancelled, -⟩ := counters_conserved hc
  exact ⟨_, _, _, _, hc, by decide +kernel, by decide +kernel, hcancelled, hrejected⟩

end Hydration

end OnDemand
