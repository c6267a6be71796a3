import OnDemand.Config.Basic
import OnDemand.Proofs.Hydration.Ledger

/-!
# When the pool returns

After the drain the pool waits for its permits to come back, but the number that it waits for is its concurrency cut to
a 32-bit word. Up to a concurrency that fits such a word it returns with every request answered; beyond, with as many
requests still being served as the word leaves out.
-/

namespace OnDemand

namespace Hydration

variable {σ : Type} [CloudFacility σ] {h h' : Hydration σ} {l : Ledger} {capacity : Nat} {config : PoolConfig}

/-! ## What has come back when the pool returns -/

/-- The pool works with `config` as it was normalized, and has returned only with the permits that it waits for. -/
structure Awaited (config : PoolConfig) (p : Pool) : Prop where
  normalized : p.config = config.normalized
  free : p.stage = .finished → config.normalized.awaited ≤ p.free

theorem Awaited.step {m : Move} (ha : Awaited config h.pool) (hm : h.move? m = some h') : Awaited config h'.pool := by
  cases step_of_move? hm with
  | finished fetched hjob => exact ⟨ha.normalized, fun hs => Nat.le_succ_of_le (ha.free hs)⟩
  | left hstage =>
    -- The step does not say how many permits were back, the move does.
    simp only [move?, leave?, Option.ite_none_right_eq_some] at hm
    obtain ⟨⟨-, hfree⟩, -⟩ := hm
    exact ⟨ha.normalized, fun _ => ha.normalized ▸ hfree⟩
  | accepted info hroom => exact ha
  | refused info hroom => exact ha
  | cancelled info => exact ha
  | hungUp => exact ha
  | shutDown => exact ⟨ha.normalized, ha.free⟩
  | drained hstage hq => exact ha
  | _ => exact ⟨ha.normalized, fun hs => by cases hs⟩

theorem awaited_of_reaches (hr : Reaches capacity config h l) : Awaited config h.pool := by
  induction hr with
  | start b => exact ⟨rfl, nofun⟩
  | move hr hm ih => exact ih.step hm
  | elsewhere hr b ih => exact ih

theorem length_jobs_le (hr : Reaches capacity config h l) (hs : h.pool.stage = .finished) :
    h.pool.jobs.length ≤ config.normalized.concurrency - config.normalized.awaited := by
  have hpermits := (balanced_of_reaches hr).permits
  have hfree := (awaited_of_reaches hr).free hs
  omega

/-- A pool whose concurrency fits a 32-bit word returns without jobs. -/
theorem jobs_eq_nil_of_returned (hr : Reaches capacity config h l) (hs : h.pool.stage = .finished)
    (hword : config.normalized.concurrency < UInt32.size) : h.pool.jobs = [] := by
  have hsize : UInt32.size = 4294967296 := rfl
  have hle := length_jobs_le hr hs
  unfold PoolConfig.awaited at hle
  exact List.eq_nil_of_length_eq_zero (by omega)

/-- A request that has left the queue and is not being served any more has been answered or given up. -/
theorem concluded_of_returned (hr : Reaches capacity config h l) (hs : h.pool.stage = .finished) :
    h.channel.counters.answered + h.channel.counters.abandoned + h.pool.jobs.length = l.arrived.length := by
  have hb := balanced_of_reaches hr
  have hwaiting : l.waiting = [] := by
    simpa [hb.emptied (by rw [hs]; rfl)] using hb.queue.symm
  have hnumbers := hb.numbers.length_eq
  simp only [Ledger.accepted, hwaiting, List.append_nil, List.length_map, List.length_append, List.length_range]
    at hnumbers
  have hconclusions := hb.conclusions
  omega

/-! ## How many requests can be left -/

/-- The pool takes requests, `n` of them are being served, and none waits. -/
structure Serving (config : PoolConfig) (n : Nat) (h : Hydration σ) : Prop where
  stage : h.pool.stage = .acquiring
  running : h.pool.stopping = false
  queue : h.channel.queue = []
  intake : h.channel.isOpen = true
  room : 0 < h.channel.capacity
  jobs : h.pool.jobs.length = n
  free : h.pool.free + n = config.normalized.concurrency

/-- One more request comes, and the loop hands it to a job. -/
theorem Serving.next {n : Nat} (hs : Serving config n h) (hr : Reaches capacity config h l)
    (hn : n < config.normalized.concurrency) :
    ∃ (h' : Hydration σ) (l' : Ledger), Reaches capacity config h' l' ∧ Serving config (n + 1) h' := by
  have hfree := hs.free
  have hroom : Accepts h.channel := by
    refine ⟨hs.intake, ?_⟩
    rw [hs.queue]
    exact hs.room
  have hfetch : h.move? (.fetch default) = some { h with
      channel := { h.channel with queue := [.ofFetch default], counters := h.channel.counters.arrive.dispatch } } := by
    rw [move?_fetch_of_accepts hroom, hs.queue, List.nil_append]
  have hr := (hr.move hfetch).move (m := .acquire) (by
    simp only [move?, acquire?, hs.stage, hs.running, Bool.not_false, true_and]
    exact if_pos (by omega))
  have hr := hr.move (m := .receive) (by
    simp only [move?, receive?, Channel.take?, Bool.not_false, and_self, if_true]
    rfl)
  refine ⟨_, _, hr, rfl, rfl, rfl, hs.intake, hs.room, ?_, ?_⟩
  · simp only [List.length_append, List.length_singleton, hs.jobs]
  · simp only
    omega

theorem exists_serving (b : Bridge σ) (capacity : Nat) (config : PoolConfig) {n : Nat}
    (hn : n ≤ config.normalized.concurrency) :
    ∃ (h : Hydration σ) (l : Ledger), Reaches capacity config h l ∧ Serving config n h := by
  induction n with
  | zero => exact ⟨_, _, .start b, rfl, rfl, rfl, rfl, by simp only [Channel.create]; omega, rfl, rfl⟩
  | succ n ih =>
    obtain ⟨h, l, hr, hs⟩ := ih (Nat.le_of_succ_le hn)
    exact hs.next hr hn

theorem Serving.returns {n : Nat} (hs : Serving config n h) (hr : Reaches capacity config h l)
    (hn : n + config.normalized.awaited ≤ config.normalized.concurrency) :
    ∃ (h' : Hydration σ) (l' : Ledger), Reaches capacity config h' l' ∧ h'.pool.stage = .finished ∧
      h'.pool.jobs.length = n := by
  have hconfig := (awaited_of_reaches hr).normalized
  have hfree := hs.free
  have hr := hr.move (m := .shutdown) rfl
  have hr := hr.move (m := .stopIntake) (by
    simp only [move?, stopIntake?, intakeEnds, hs.stage, if_true]
    rfl)
  have hr := hr.move (m := .settle) (by
    simp only [move?, settle?, Channel.close, hs.queue, and_self, if_true]
    rfl)
  have hr := hr.move (m := .leave) (by
    simp only [move?, leave?, hconfig, true_and]
    exact if_pos (by simp only [reduceCtorEq, if_false]; omega))
  exact ⟨_, _, hr, rfl, hs.jobs⟩

theorem exists_returned_iff (b : Bridge σ) (capacity : Nat) (config : PoolConfig) (n : Nat) :
    (∃ (h : Hydration σ) (l : Ledger), Reaches capacity config h l ∧ h.pool.stage = .finished ∧
      h.pool.jobs.length = n) ↔ n + config.normalized.awaited ≤ config.normalized.concurrency := by
  constructor
  · rintro ⟨h, l, hr, hs, rfl⟩
    have hle := length_jobs_le hr hs
    have hword : config.normalized.awaited ≤ config.normalized.concurrency := Nat.mod_le ..
    omega
  · intro hn
    obtain ⟨h, l, hr, hs⟩ := exists_serving b capacity config (Nat.le_of_add_right_le hn)
    exact hs.returns hr hn

/-! ## The whole -/

/-- Whatever the workers that a configuration asks for: the numbers of requests that can still be in service when their
pool returns are those up to the permits that it does not wait for. So it returns only with every request answered or
given up, in every order of the moves, exactly if their number fits a 32-bit word. -/
theorem returns_answered_iff (b : Bridge σ) (c : Config) (processors : Nat) :
    (∀ n, (∃ (capacity : Nat) (h : Hydration σ) (l : Ledger), Reaches capacity (c.pool processors) h l ∧
        h.pool.stage = .finished ∧ h.pool.jobs.length = n) ↔
      n + (c.pool processors).normalized.awaited ≤ (c.pool processors).normalized.concurrency) ∧
    ((∀ (capacity : Nat) (h : Hydration σ) (l : Ledger), Reaches capacity (c.pool processors) h l →
        h.pool.stage = .finished →
        h.pool.jobs = [] ∧ h.channel.counters.answered + h.channel.counters.abandoned = l.arrived.length) ↔
      (c.pool processors).normalized.concurrency < UInt32.size) := by
  have hsize : UInt32.size = 4294967296 := rfl
  refine ⟨fun n => ⟨?_, fun hn => ⟨1, (exists_returned_iff b 1 _ n).2 hn⟩⟩, ⟨fun hall => ?_, fun hword => ?_⟩⟩
  · rintro ⟨capacity, h, l, hreturned⟩
    exact (exists_returned_iff b capacity _ n).1 ⟨h, l, hreturned⟩
  · by_contra hword
    have hone : 1 + (c.pool processors).normalized.awaited ≤ (c.pool processors).normalized.concurrency := by
      unfold PoolConfig.awaited
      omega
    obtain ⟨h, l, hr, hs, hjobs⟩ := (exists_returned_iff b 1 _ 1).2 hone
    have hempty := (hall 1 h l hr hs).1
    simp [hempty] at hjobs
  · intro capacity h l hr hs
    have hjobs := jobs_eq_nil_of_returned hr hs hword
    have hconcluded := concluded_of_returned hr hs
    rw [hjobs, List.length_nil] at hconcluded
    exact ⟨hjobs, hconcluded⟩

/-- As many workers as a 32-bit word does not hold any more. -/
def manyWorkers : Config := { Config.default with hydration.workers := 4294967296 }

/-- The configuration is valid and its permits can be had. A request that has come to a job is still being served when
the pool returns. -/
theorem returns_amid_answer :
    manyWorkers.validate = .ok () ∧ (manyWorkers.pool 4).normalized.concurrency ≤ PoolConfig.maxConcurrency ∧
    ∃ (h : Hydration Facility) (l : Ledger), Reaches 1 (manyWorkers.pool 4) h l ∧ h.pool.stage = .finished ∧
      h.pool.jobs.map (·.request.identity.bytes) = [[97]] ∧
      h.channel.counters.answered + h.channel.counters.abandoned = 0 ∧ l.arrived.length = 1 := by
  have hr : Reaches 1 (manyWorkers.pool 4) (⟨.ofFacility Facility.empty, .create 1, .create (manyWorkers.pool 4)⟩ :
    Hydration Facility) .empty := .start _
  have hr := ((hr.move (m := .fetch ⟨⟨1⟩, ⟨1⟩, [97], 0, 8, 8, none⟩) rfl).move (m := .acquire) rfl).move
    (m := .receive) rfl
  have hr := (((hr.move (m := .shutdown) rfl).move (m := .stopIntake) rfl).move (m := .settle) rfl).move
    (m := .leave) rfl
  exact ⟨by decide +kernel, by decide, _, _, hr, rfl, rfl, rfl, rfl⟩

end Hydration

end OnDemand
