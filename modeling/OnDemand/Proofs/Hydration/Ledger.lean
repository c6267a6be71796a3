import Mathlib.Data.List.Perm.Basic
import OnDemand.Facility.Operations
import OnDemand.Proofs.Hydration.Step

/-!
# Every request is handed on once

Beside a channel and its pool stands a ledger of the requests that have arrived: refused on the spot, still waiting,
served by a job, or failed by the drain. The queue is what waits in the ledger, in every order of the moves.
-/

namespace OnDemand

/-- The drain has begun. -/
def Stage.isOver : Stage → Bool
  | .acquiring | .receiving => false
  | .draining | .settling | .finished => true

/-- The drain has come to its end. -/
def Stage.isDrained : Stage → Bool
  | .acquiring | .receiving | .draining => false
  | .settling | .finished => true

theorem Stage.isOver_of_isDrained {s : Stage} (hs : s.isDrained = true) : s.isOver = true := by
  cases s <;> first | rfl | cases hs

namespace Hydration

variable {σ : Type} {h h' : Hydration σ} {m : Move} {capacity : Nat} {config : PoolConfig}

/-! ## The ledger -/

/-- A request, with the number of callbacks that had come before its own. -/
structure Arrival where
  number : Nat
  request : Request
deriving DecidableEq, Repr

structure Ledger where
  /-- The callbacks, in the order in which they came. -/
  arrived : List FetchInfo
  refused : List Arrival
  /-- In the queue, oldest first. -/
  waiting : List Arrival
  /-- Taken out of the queue into jobs, in this order. -/
  served : List Arrival
  /-- Taken out of the queue by the drain, in this order. -/
  drained : List Arrival
deriving Repr

namespace Ledger

def empty : Ledger := ⟨[], [], [], [], []⟩

/-- The requests that were let into the queue: those that have left it, as they left, and those still there. -/
def accepted (l : Ledger) : List Arrival := l.served ++ l.drained ++ l.waiting

/-- The ledger after the move `m` from `h`. -/
def next (h : Hydration σ) (l : Ledger) : Move → Ledger
  | .fetch info =>
    let e : Arrival := ⟨l.arrived.length, .ofFetch info⟩
    if (h.channel.offer e.request).1 then
      { l with arrived := l.arrived ++ [info], waiting := l.waiting ++ [e] }
    else { l with arrived := l.arrived ++ [info], refused := l.refused ++ [e] }
  | .receive => { l with served := l.served ++ l.waiting.take 1, waiting := l.waiting.drop 1 }
  | .drain => { l with drained := l.drained ++ l.waiting.take 1, waiting := l.waiting.drop 1 }
  | _ => l

end Ledger

/-- The states that a channel of `capacity` and a pool with `config` can come to, with their ledgers. Between the moves
other parts of the program may do anything to the bridge. -/
inductive Reaches [CloudFacility σ] (capacity : Nat) (config : PoolConfig) : Hydration σ → Ledger → Prop where
  | start (b : Bridge σ) : Reaches capacity config ⟨b, .create capacity, .create config⟩ .empty
  | move {h h' : Hydration σ} {l : Ledger} {m : Move} (hr : Reaches capacity config h l) (hm : h.move? m = some h') :
      Reaches capacity config h' (l.next h m)
  | elsewhere {h : Hydration σ} {l : Ledger} (hr : Reaches capacity config h l) (b : Bridge σ) :
      Reaches capacity config { h with bridge := b } l

/-! ## What every state keeps -/

/-- The request has the keys, the identity and the path of the callback; negative numbers have become zero. -/
structure Mirrors (r : Request) (info : FetchInfo) : Prop where
  connection : r.connection = info.connection
  transfer : r.transfer = info.transfer
  identity : r.identity.bytes = info.identity
  offset : (r.offset : Int) = max 0 info.offset
  length : (r.length : Int) = max 0 info.length
  fileSize : (r.fileSize : Int) = max 0 info.fileSize
  path : r.path = info.path

theorem mirrors_ofFetch (info : FetchInfo) : Mirrors (.ofFetch info) info where
  connection := rfl
  transfer := rfl
  identity := rfl
  offset := by simp only [Request.ofFetch]; omega
  length := by simp only [Request.ofFetch]; omega
  fileSize := by simp only [Request.ofFetch]; omega
  path := rfl

/-- The ledger and the state agree. -/
structure Balanced (capacity : Nat) (config : PoolConfig) (h : Hydration σ) (l : Ledger) : Prop where
  bound : h.channel.capacity = max capacity 1
  room : h.channel.queue.length ≤ h.channel.capacity
  queue : h.channel.queue = l.waiting.map Arrival.request
  numbers : ((l.refused ++ l.accepted).map Arrival.number).Perm (List.range l.arrived.length)
  ordered : l.accepted.Pairwise fun e e' => e.number < e'.number
  mirrors : ∀ e ∈ l.refused ++ l.accepted, ∃ info, l.arrived[e.number]? = some info ∧ Mirrors e.request info
  undrained : h.pool.stage.isOver = false → l.drained = []
  closed : h.pool.stage.isOver = true → h.channel.isOpen = false
  emptied : h.pool.stage.isDrained = true → h.channel.queue = []
  permits : h.pool.free + held h.pool + h.pool.jobs.length = config.normalized.concurrency
  next : h.pool.nextJob = l.served.length
  jobs : ∀ job ∈ h.pool.jobs, (l.served[job.number]?).map Arrival.request = some job.request
  distinct : h.pool.jobs.Pairwise fun job job' => job.number < job'.number
  arrivals : h.channel.counters.arrived = l.arrived.length
  dispatches : h.channel.counters.dispatched = l.accepted.length
  rejections : h.channel.counters.rejected = l.refused.length
  /-- Each request that is neither waiting nor being served has been answered, or its answer refused, once. -/
  conclusions : h.channel.counters.answered + h.channel.counters.abandoned + h.pool.jobs.length =
    l.refused.length + l.served.length + l.drained.length

variable {l : Ledger}

theorem Balanced.number_lt (hb : Balanced capacity config h l) {e : Arrival} (he : e ∈ l.refused ++ l.accepted) :
    e.number < l.arrived.length :=
  List.mem_range.1 (hb.numbers.subset (List.mem_map_of_mem he))

/-- The entry of a callback is mirrored by that callback, and the earlier entries stay so. -/
theorem Balanced.mirrors_append (hb : Balanced capacity config h l) (info : FetchInfo) {e : Arrival}
    (he : e ∈ l.refused ++ l.accepted ∨ e = ⟨l.arrived.length, .ofFetch info⟩) :
    ∃ i, (l.arrived ++ [info])[e.number]? = some i ∧ Mirrors e.request i := by
  rcases he with he | rfl
  · obtain ⟨i, hi, hmirrors⟩ := hb.mirrors e he
    rw [List.getElem?_append_left (hb.number_lt he)]
    exact ⟨i, hi, hmirrors⟩
  · exact ⟨info, by simp, mirrors_ofFetch info⟩

theorem balanced_start (b : Bridge σ) :
    Balanced capacity config (⟨b, .create capacity, .create config⟩ : Hydration σ) .empty where
  bound := rfl
  room := Nat.zero_le _
  queue := rfl
  numbers := .refl _
  ordered := .nil
  mirrors := by simp [Ledger.empty, Ledger.accepted]
  undrained _ := rfl
  closed hs := by cases hs
  emptied _ := rfl
  permits := rfl
  next := rfl
  jobs := by simp [Pool.create]
  distinct := .nil
  arrivals := rfl
  dispatches := rfl
  rejections := rfl
  conclusions := rfl

theorem Balanced.accept (hb : Balanced capacity config h l) (info : FetchInfo) (ha : Accepts h.channel) :
    Balanced capacity config
      { h with channel := { h.channel with
        queue := h.channel.queue ++ [.ofFetch info], counters := h.channel.counters.arrive.dispatch } }
      { l with arrived := l.arrived ++ [info], waiting := l.waiting ++ [⟨l.arrived.length, .ofFetch info⟩] } := by
  have haccepted : ({ l with
      arrived := l.arrived ++ [info], waiting := l.waiting ++ [⟨l.arrived.length, .ofFetch info⟩] } : Ledger).accepted =
      l.accepted ++ [⟨l.arrived.length, .ofFetch info⟩] := by simp [Ledger.accepted]
  refine { hb with
    room := ?_, queue := ?_, numbers := ?_, ordered := ?_, mirrors := ?_, emptied := ?_, arrivals := ?_, dispatches := ?_ }
  · rw [List.length_append]
    exact ha.2
  · simp [hb.queue]
  · rw [haccepted, ← List.append_assoc, List.map_append, List.length_append, List.length_singleton, List.range_succ]
    exact hb.numbers.append_right _
  · rw [haccepted, List.pairwise_append]
    refine ⟨hb.ordered, List.pairwise_singleton .., fun e he e' he' => ?_⟩
    obtain rfl := List.mem_singleton.1 he'
    exact hb.number_lt (List.mem_append_right _ he)
  · intro e he
    rw [haccepted, ← List.append_assoc, List.mem_append, List.mem_singleton] at he
    exact hb.mirrors_append info he
  · intro hs
    have hclosed := hb.closed (Stage.isOver_of_isDrained hs)
    simp [ha.1] at hclosed
  · simp [Counters.arrive, Counters.dispatch, hb.arrivals]
  · rw [haccepted]
    simp [Counters.arrive, Counters.dispatch, hb.dispatches]

theorem conclude_total (c : Counters) (x : Conclusion) :
    (c.conclude x).answered + (c.conclude x).abandoned = c.answered + c.abandoned + 1 := by
  cases x <;> simp only [Counters.conclude] <;> omega

theorem arrived_conclude (c : Counters) (x : Conclusion) : (c.conclude x).arrived = c.arrived := by
  cases x <;> rfl

theorem dispatched_conclude (c : Counters) (x : Conclusion) : (c.conclude x).dispatched = c.dispatched := by
  cases x <;> rfl

theorem rejected_conclude (c : Counters) (x : Conclusion) : (c.conclude x).rejected = c.rejected := by
  cases x <;> rfl

theorem Balanced.refuse (hb : Balanced capacity config h l) (info : FetchInfo) (b : Bridge σ) (x : Conclusion) :
    Balanced capacity config
      { h with bridge := b, channel := { h.channel with counters := h.channel.counters.arrive.reject.conclude x } }
      { l with arrived := l.arrived ++ [info], refused := l.refused ++ [⟨l.arrived.length, .ofFetch info⟩] } := by
  refine { hb with
    numbers := ?_, mirrors := ?_, arrivals := ?_, dispatches := ?_, rejections := ?_, conclusions := ?_ }
  · have hperm : ∀ e : Arrival, ((l.refused ++ [e] ++ l.accepted).map Arrival.number).Perm
        ((l.refused ++ l.accepted).map Arrival.number ++ [e.number]) := by
      intro e
      simp only [List.append_assoc, List.map_append]
      exact List.perm_append_comm.append_left _
    rw [List.length_append, List.length_singleton, List.range_succ]
    exact (hperm _).trans (hb.numbers.append_right _)
  · intro e he
    refine hb.mirrors_append info ?_
    simp only [List.mem_append, List.mem_singleton] at he ⊢
    rcases he with (he | he) | he
    · exact .inl (.inl he)
    · exact .inr he
    · exact .inl (.inr he)
  · simp [arrived_conclude, Counters.arrive, Counters.reject, hb.arrivals]
  · rw [dispatched_conclude]
    exact hb.dispatches
  · simp [rejected_conclude, Counters.arrive, Counters.reject, hb.rejections]
  · have htotal := conclude_total h.channel.counters.arrive.reject x
    have hconclusions := hb.conclusions
    simp only [Counters.arrive, Counters.reject] at htotal ⊢
    simp only [List.length_append, List.length_singleton]
    omega

/-- The oldest request in the queue is the one that has waited longest. -/
theorem Balanced.oldest (hb : Balanced capacity config h l) {r : Request} {rest : List Request}
    (hq : h.channel.queue = r :: rest) :
    ∃ e waiting, l.waiting = e :: waiting ∧ e.request = r ∧ waiting.map Arrival.request = rest := by
  have hwaiting := hb.queue
  rw [hq] at hwaiting
  exact List.map_eq_cons_iff.1 hwaiting.symm

theorem Balanced.receive (hb : Balanced capacity config h l) {r : Request} {rest : List Request}
    (hstage : h.pool.stage = .receiving) (hq : h.channel.queue = r :: rest) :
    Balanced capacity config
      { h with
        channel := { h.channel with queue := rest }
        pool := { h.pool with
          stage := .acquiring
          jobs := h.pool.jobs ++ [⟨h.pool.nextJob, r⟩]
          nextJob := h.pool.nextJob + 1 } }
      { l with served := l.served ++ l.waiting.take 1, waiting := l.waiting.drop 1 } := by
  obtain ⟨e, waiting, hwaiting, rfl, rfl⟩ := hb.oldest hq
  have hdrained := hb.undrained (by rw [hstage]; rfl)
  have haccepted : ({ l with
      served := l.served ++ l.waiting.take 1, waiting := l.waiting.drop 1 } : Ledger).accepted = l.accepted := by
    simp [Ledger.accepted, hwaiting, hdrained]
  have hroom := hb.room
  refine { hb with
    room := ?_, queue := ?_, numbers := ?_, ordered := ?_, mirrors := ?_, undrained := ?_, closed := ?_, emptied := ?_,
    permits := ?_, next := ?_, jobs := ?_, distinct := ?_, dispatches := ?_, conclusions := ?_ }
  · simp only [hq, List.length_cons] at hroom ⊢
    omega
  · simp [hwaiting]
  · rw [haccepted]
    exact hb.numbers
  · rw [haccepted]
    exact hb.ordered
  · rw [haccepted]
    exact hb.mirrors
  · intro
    exact hdrained
  · intro hs
    cases hs
  · intro hs
    cases hs
  · have hpermits := hb.permits
    simp only [held, hstage, if_true, reduceCtorEq, if_false, List.length_append, List.length_singleton] at hpermits ⊢
    omega
  · simp [hwaiting, hb.next]
  · intro job hjob
    rcases List.mem_append.1 hjob with hjob | hjob
    · obtain ⟨e', he', hrequest⟩ := Option.map_eq_some_iff.1 (hb.jobs job hjob)
      have hlt : job.number < l.served.length := (List.getElem?_eq_some_iff.1 he').1
      simp [List.getElem?_append_left hlt, he', hrequest]
    · obtain rfl := List.mem_singleton.1 hjob
      simp [hb.next, hwaiting]
  · refine List.pairwise_append.2 ⟨hb.distinct, List.pairwise_singleton .., fun job hjob job' hjob' => ?_⟩
    obtain rfl := List.mem_singleton.1 hjob'
    obtain ⟨e', he', -⟩ := Option.map_eq_some_iff.1 (hb.jobs job hjob)
    simp only [hb.next]
    exact (List.getElem?_eq_some_iff.1 he').1
  · rw [haccepted]
    exact hb.dispatches
  · have hconclusions := hb.conclusions
    simp only [hwaiting, List.take_succ_cons, List.take_zero, List.length_append, List.length_singleton]
    omega

theorem Balanced.drain (hb : Balanced capacity config h l) {r : Request} {rest : List Request} (b : Bridge σ)
    (x : Conclusion) (hstage : h.pool.stage = .draining) (hq : h.channel.queue = r :: rest) :
    Balanced capacity config
      { h with
        bridge := b
        channel := { h.channel with queue := rest, counters := h.channel.counters.conclude x } }
      { l with drained := l.drained ++ l.waiting.take 1, waiting := l.waiting.drop 1 } := by
  obtain ⟨e, waiting, hwaiting, rfl, rfl⟩ := hb.oldest hq
  have haccepted : ({ l with
      drained := l.drained ++ l.waiting.take 1, waiting := l.waiting.drop 1 } : Ledger).accepted = l.accepted := by
    simp [Ledger.accepted, hwaiting]
  have hroom := hb.room
  refine { hb with
    room := ?_, queue := ?_, numbers := ?_, ordered := ?_, mirrors := ?_, undrained := ?_, emptied := ?_,
    arrivals := ?_, dispatches := ?_, rejections := ?_, conclusions := ?_ }
  · simp only [hq, List.length_cons] at hroom ⊢
    omega
  · simp [hwaiting]
  · rw [haccepted]
    exact hb.numbers
  · rw [haccepted]
    exact hb.ordered
  · rw [haccepted]
    exact hb.mirrors
  · intro hs
    rw [hstage] at hs
    cases hs
  · intro hs
    rw [hstage] at hs
    cases hs
  · rw [arrived_conclude]
    exact hb.arrivals
  · rw [dispatched_conclude, haccepted]
    exact hb.dispatches
  · rw [rejected_conclude]
    exact hb.rejections
  · have htotal := conclude_total h.channel.counters x
    have hconclusions := hb.conclusions
    simp only [hwaiting, List.take_succ_cons, List.take_zero, List.length_append, List.length_singleton] at htotal ⊢
    omega

/-- Of jobs whose numbers differ, dropping those with the number of one drops just that one. -/
theorem perm_filter_job {jobs : List Job} {job : Job}
    (hdistinct : jobs.Pairwise fun job job' => job.number < job'.number) (hjob : job ∈ jobs) :
    jobs.Perm (job :: jobs.filter (·.number ≠ job.number)) := by
  induction jobs with
  | nil => cases hjob
  | cons first rest ih =>
    obtain ⟨hfirst, hrest⟩ := List.pairwise_cons.1 hdistinct
    rcases List.mem_cons.1 hjob with rfl | hjob
    · have hall : rest.filter (·.number ≠ job.number) = rest := by
        refine List.filter_eq_self.2 fun other hother => ?_
        have hlt := hfirst other hother
        simp only [ne_eq, decide_not, Bool.not_eq_eq_eq_not, Bool.not_true, decide_eq_false_iff_not]
        omega
      rw [List.filter_cons, if_neg (by simp), hall]
    · have hne : first.number ≠ job.number := by
        have hlt := hfirst job hjob
        omega
      rw [List.filter_cons, if_pos (by simpa using hne)]
      exact ((ih hrest hjob).cons first).trans (.swap job first _)

theorem Balanced.finish (hb : Balanced capacity config h l) {job : Job} (b : Bridge σ) (x : Conclusion)
    (hjob : job ∈ h.pool.jobs) :
    Balanced capacity config
      { bridge := b
        channel := { h.channel with counters := h.channel.counters.conclude x }
        pool := { h.pool with jobs := h.pool.jobs.filter (·.number ≠ job.number), free := h.pool.free + 1 } } l := by
  have hlength := (perm_filter_job hb.distinct hjob).length_eq
  rw [List.length_cons] at hlength
  refine { hb with
    permits := ?_, jobs := ?_, distinct := ?_, arrivals := ?_, dispatches := ?_, rejections := ?_, conclusions := ?_ }
  · have hpermits := hb.permits
    simp only [held] at hpermits ⊢
    omega
  · intro other hother
    exact hb.jobs other (List.mem_of_mem_filter hother)
  · exact hb.distinct.filter _
  · rw [arrived_conclude]
    exact hb.arrivals
  · rw [dispatched_conclude]
    exact hb.dispatches
  · rw [rejected_conclude]
    exact hb.rejections
  · have htotal := conclude_total h.channel.counters x
    have hconclusions := hb.conclusions
    simp only at htotal ⊢
    omega

theorem Balanced.acquire (hb : Balanced capacity config h l) (hstage : h.pool.stage = .acquiring)
    (hfree : 0 < h.pool.free) :
    Balanced capacity config { h with pool := { h.pool with stage := .receiving, free := h.pool.free - 1 } } l := by
  refine { hb with undrained := ?_, closed := ?_, emptied := ?_, permits := ?_ }
  · intro
    exact hb.undrained (by rw [hstage]; rfl)
  · intro hs
    cases hs
  · intro hs
    cases hs
  · have hpermits := hb.permits
    simp only [held, hstage, if_true, reduceCtorEq, if_false] at hpermits ⊢
    omega

theorem Balanced.stopIntake (hb : Balanced capacity config h l) :
    Balanced capacity config
      { h with
        channel := { h.channel with isOpen := false }
        pool := { h.pool with stage := .draining, free := h.pool.free + held h.pool } } l := by
  refine { hb with undrained := ?_, closed := ?_, emptied := ?_, permits := ?_ }
  · intro hs
    cases hs
  · intro
    rfl
  · intro hs
    cases hs
  · exact hb.permits

/-- Once the loop has ended, the later stages change nothing but the stage. -/
theorem Balanced.enter (hb : Balanced capacity config h l) {stage : Stage} (hover : h.pool.stage.isOver = true)
    (hstage : stage.isOver = true) (hq : h.channel.queue = []) :
    Balanced capacity config { h with pool := { h.pool with stage } } l := by
  have hheld : ∀ {p : Pool}, p.stage.isOver = true → held p = 0 := by
    intro p hp
    unfold held
    rw [if_neg]
    intro he
    rw [he] at hp
    cases hp
  refine { hb with undrained := ?_, closed := ?_, emptied := ?_, permits := ?_ }
  · intro hs
    rw [hstage] at hs
    cases hs
  · intro
    exact hb.closed hover
  · intro
    exact hq
  · rw [hheld hstage, ← hb.permits, hheld hover]

theorem Balanced.step [CloudFacility σ] (hb : Balanced capacity config h l) (hs : Step h m h') :
    Balanced capacity config h' (l.next h m) := by
  cases hs with
  | accepted info ha =>
    rw [Ledger.next, offer_of_accepts ha]
    exact hb.accept info ha
  | refused info ha =>
    rw [Ledger.next, offer_of_not_accepts ha]
    exact hb.refuse info _ _
  | cancelled info => exact { hb with }
  | hungUp => exact { hb with closed := fun _ => rfl }
  | shutDown => exact { hb with }
  | acquired hstage hfree => exact hb.acquire hstage hfree
  | received hstage hq => exact hb.receive hstage hq
  | stopped hstage => exact hb.stopIntake
  | drained hstage hq => exact hb.drain _ _ hstage hq
  | settled hstage hq => exact hb.enter (by rw [hstage]; rfl) rfl hq
  | finished fetched hjob => exact hb.finish _ _ hjob
  | left hstage => exact hb.enter (by rw [hstage]; rfl) rfl (hb.emptied (by rw [hstage]; rfl))

theorem balanced_of_reaches [CloudFacility σ] (hr : Reaches capacity config h l) : Balanced capacity config h l := by
  induction hr with
  | start b => exact balanced_start b
  | move hr hm ih => exact ih.step (step_of_move? hm)
  | elsewhere hr b ih => exact { ih with }

/-! ## What becomes of the requests that the ledger moves -/

theorem append_ne_self {e : Arrival} {entries : List Arrival} : entries ≠ entries ++ [e] := by
  simp

/-- What the ledger has as refused or drained is failed in this very move. -/
theorem Balanced.bridge_of_refused [CloudFacility σ] (hb : Balanced capacity config h l) (hm : h.move? m = some h')
    {e : Arrival} (he : (l.next h m).refused = l.refused ++ [e] ∨ (l.next h m).drained = l.drained ++ [e]) :
    h'.bridge = (Answer.refuse e.request h.bridge).2 := by
  cases step_of_move? hm with
  | accepted info ha =>
    rw [Ledger.next, offer_of_accepts ha] at he
    exact absurd he (by simp)
  | refused info ha =>
    rw [Ledger.next, offer_of_not_accepts ha] at he
    rcases he with he | he
    · obtain rfl : _ = e := List.singleton_inj.1 (List.append_cancel_left he)
      rfl
    · exact absurd he append_ne_self
  | drained hstage hq =>
    obtain ⟨e', waiting, hwaiting, rfl, -⟩ := hb.oldest hq
    rcases he with he | he
    · exact absurd he append_ne_self
    · simp only [Ledger.next, hwaiting, List.take_succ_cons, List.take_zero] at he
      obtain rfl : e' = e := List.singleton_inj.1 (List.append_cancel_left he)
      rfl
  | _ => exact absurd he (by simp [Ledger.next])

/-- What the ledger has as served becomes a job in this very move. -/
theorem Balanced.jobs_of_served [CloudFacility σ] (hb : Balanced capacity config h l) (hm : h.move? m = some h')
    {e : Arrival} (he : (l.next h m).served = l.served ++ [e]) :
    h'.pool.jobs = h.pool.jobs ++ [⟨l.served.length, e.request⟩] := by
  cases step_of_move? hm with
  | accepted info ha =>
    rw [Ledger.next, offer_of_accepts ha] at he
    exact absurd he append_ne_self
  | refused info ha =>
    rw [Ledger.next, offer_of_not_accepts ha] at he
    exact absurd he append_ne_self
  | received hstage hq =>
    obtain ⟨e', waiting, hwaiting, rfl, -⟩ := hb.oldest hq
    simp only [Ledger.next, hwaiting, List.take_succ_cons, List.take_zero] at he
    obtain rfl : e' = e := List.singleton_inj.1 (List.append_cancel_left he)
    rw [hb.next]
  | _ => exact absurd he append_ne_self

/-! ## The whole -/

/-- Whatever the order of the moves: every request that has arrived is refused on the spot, waits in the queue, or has left
it, once, into a job or to the drain, and has the fields of its callback; requests leave the queue in the order in which
they came; queue and jobs stay within their bounds, and after the drain the queue is empty. The counters tell how many
have gone each way, and the moves that take a request out of the queue or keep it out answer that request. -/
theorem requests_conserved [CloudFacility σ] (hr : Reaches capacity config h l) :
    ((l.refused ++ (l.served ++ l.drained ++ l.waiting)).map Arrival.number).Perm (List.range l.arrived.length) ∧
    (∀ e ∈ l.refused ++ (l.served ++ l.drained ++ l.waiting),
      ∃ info, l.arrived[e.number]? = some info ∧ Mirrors e.request info) ∧
    ((l.served ++ l.drained ++ l.waiting).Pairwise fun e e' => e.number < e'.number) ∧
    h.channel.queue = l.waiting.map Arrival.request ∧
    h.channel.queue.length ≤ max capacity 1 ∧
    h.pool.nextJob = l.served.length ∧
    (h.pool.jobs.Pairwise fun job job' => job.number < job'.number) ∧
    (∀ job ∈ h.pool.jobs, (l.served[job.number]?).map Arrival.request = some job.request) ∧
    h.pool.jobs.length ≤ config.normalized.concurrency ∧
    (h.pool.stage.isDrained = true → h.channel.queue = []) ∧
    h.channel.counters.arrived = l.arrived.length ∧
    h.channel.counters.rejected = l.refused.length ∧
    h.channel.counters.dispatched = l.served.length + l.drained.length + l.waiting.length ∧
    h.channel.counters.answered + h.channel.counters.abandoned + h.pool.jobs.length =
      l.refused.length + l.served.length + l.drained.length ∧
    (∀ m h' e, h.move? m = some h' →
      ((l.next h m).refused = l.refused ++ [e] ∨ (l.next h m).drained = l.drained ++ [e] →
        h'.bridge = (Answer.refuse e.request h.bridge).2) ∧
      ((l.next h m).served = l.served ++ [e] →
        h'.pool.jobs = h.pool.jobs ++ [⟨l.served.length, e.request⟩])) := by
  have hb := balanced_of_reaches hr
  have hroom : h.channel.queue.length ≤ max capacity 1 := hb.bound ▸ hb.room
  have hjobs : h.pool.jobs.length ≤ config.normalized.concurrency := by
    have hpermits := hb.permits
    omega
  have hdispatches : h.channel.counters.dispatched = l.served.length + l.drained.length + l.waiting.length := by
    rw [hb.dispatches, Ledger.accepted, List.length_append, List.length_append]
  exact ⟨hb.numbers, hb.mirrors, hb.ordered, hb.queue, hroom, hb.next, hb.distinct, hb.jobs, hjobs, hb.emptied,
    hb.arrivals, hb.rejections, hdispatches, hb.conclusions, fun _ _ _ hm =>
      ⟨hb.bridge_of_refused hm, hb.jobs_of_served hm⟩⟩

/-- With room for one request and one permit: of three requests the second one finds the queue full, the first one is
being served and the last one still waits when the pool is shut down. -/
theorem requests_conserved_shutdown :
    ∃ (h : Hydration Facility) (l : Ledger), Reaches 1 ⟨1, 4096, 1000⟩ h l ∧
      (l.refused.map Arrival.number, l.served.map Arrival.number, l.drained.map Arrival.number) = ([1], [0], [2]) ∧
      h.channel.queue = [] ∧ h.pool.jobs.length = 1 ∧ h.pool.jobs.length ≤ 1 ∧ h.channel.counters.rejected = 1 := by
  have hr : Reaches 1 ⟨1, 4096, 1000⟩ (⟨.ofFacility Facility.empty, .create 1, .create ⟨1, 4096, 1000⟩⟩ : Hydration Facility)
    .empty := .start _
  have hr := hr.move (m := .fetch ⟨⟨1⟩, ⟨1⟩, [97], 0, 8, 8, none⟩) rfl
  have hr := hr.move (m := .fetch ⟨⟨1⟩, ⟨2⟩, [98], -3, 8, 8, none⟩) rfl
  have hr := ((hr.move (m := .acquire) rfl).move (m := .receive) rfl)
  have hr := hr.move (m := .fetch ⟨⟨1⟩, ⟨3⟩, [99], 0, 8, 8, none⟩) rfl
  have hr := (((hr.move (m := .shutdown) rfl).move (m := .stopIntake) rfl).move (m := .drain) rfl).move (m := .settle) rfl
  obtain ⟨-, -, -, -, -, -, -, -, hjobs, hempty, -, hrejected, -⟩ := requests_conserved hr
  exact ⟨_, _, hr, rfl, hempty rfl, rfl, hjobs, hrejected⟩

end Hydration

end OnDemand
