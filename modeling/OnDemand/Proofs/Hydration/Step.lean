import OnDemand.Hydration.Pool

/-!
# The steps of a channel and its pool

Each possible move comes to one step, with what has to hold before it and the state after it.
-/

namespace OnDemand.Hydration

variable {σ : Type} [CloudFacility σ] {h h' : Hydration σ} {m : Move}

/-- There is room for one more request. -/
def Accepts (c : Channel) : Prop := c.isOpen = true ∧ c.queue.length < c.capacity

theorem offer_of_accepts {r : Request} {c : Channel} (ha : Accepts c) :
    c.offer r = (true, { c with queue := c.queue ++ [r] }) := by
  obtain ⟨hopen, hroom⟩ := ha
  simp [Channel.offer, hopen, hroom]

theorem offer_of_not_accepts {r : Request} {c : Channel} (ha : ¬Accepts c) : c.offer r = (false, c) := by
  unfold Channel.offer
  rw [if_neg]
  simpa [Accepts] using ha

theorem take?_eq_some {c d : Channel} {r : Request} :
    c.take? = some (r, d) ↔ ∃ rest, c.queue = r :: rest ∧ d = { c with queue := rest } := by
  unfold Channel.take?
  split
  · rename_i hq
    simp [hq]
  · rename_i s rest hq
    simp only [hq, Option.some.injEq, Prod.mk.injEq, List.cons.injEq]
    constructor
    · rintro ⟨rfl, rfl⟩
      exact ⟨rest, ⟨rfl, rfl⟩, rfl⟩
    · rintro ⟨_, ⟨rfl, rfl⟩, rfl⟩
      exact ⟨rfl, rfl⟩

/-- The permits in the hand of the pool's loop. -/
def held (p : Pool) : Nat := if p.stage = .receiving then 1 else 0

/-- What the move `m` makes of the state `h`. -/
inductive Step (h : Hydration σ) : Move → Hydration σ → Prop where
  | accepted (info : FetchInfo) (ha : Accepts h.channel) :
      Step h (.fetch info) { h with channel := { h.channel with
        queue := h.channel.queue ++ [.ofFetch info], counters := h.channel.counters.arrive.dispatch } }
  | refused (info : FetchInfo) (ha : ¬Accepts h.channel) :
      Step h (.fetch info) { h with
        bridge := (Answer.refuse (.ofFetch info) h.bridge).2
        channel := { h.channel with
          counters := h.channel.counters.arrive.reject.conclude (Answer.refuse (.ofFetch info) h.bridge).1 } }
  | cancelled (info : CancelInfo) :
      Step h (.cancel info) { h with channel := { h.channel with counters := h.channel.counters.cancel } }
  | hungUp : Step h .hangUp { h with channel := { h.channel with isOpen := false } }
  | shutDown : Step h .shutdown { h with pool := { h.pool with stopping := true } }
  | acquired (hstage : h.pool.stage = .acquiring) (hfree : 0 < h.pool.free) :
      Step h .acquire { h with pool := { h.pool with stage := .receiving, free := h.pool.free - 1 } }
  | received {r : Request} {rest : List Request} (hstage : h.pool.stage = .receiving) (hq : h.channel.queue = r :: rest) :
      Step h .receive { h with
        channel := { h.channel with queue := rest }
        pool := { h.pool with
          stage := .acquiring
          jobs := h.pool.jobs ++ [⟨h.pool.nextJob, r⟩]
          nextJob := h.pool.nextJob + 1 } }
  | stopped (hstage : h.pool.stage = .acquiring ∨ h.pool.stage = .receiving) :
      Step h .stopIntake { h with
        channel := { h.channel with isOpen := false }
        pool := { h.pool with stage := .draining, free := h.pool.free + held h.pool } }
  | drained {r : Request} {rest : List Request} (hstage : h.pool.stage = .draining) (hq : h.channel.queue = r :: rest) :
      Step h .drain { h with
        bridge := (Answer.refuse r h.bridge).2
        channel := { h.channel with
          queue := rest, counters := h.channel.counters.conclude (Answer.refuse r h.bridge).1 } }
  | settled (hstage : h.pool.stage = .draining) (hq : h.channel.queue = []) :
      Step h .settle { h with pool := { h.pool with stage := .settling } }
  | finished {job : Job} (fetched : Fetched) (hjob : job ∈ h.pool.jobs) :
      Step h (.finish job.number fetched) {
        bridge := (Answer.serve h.pool.config.chunkSize job.request fetched h.bridge).2
        channel := { h.channel with counters :=
          h.channel.counters.conclude (Answer.serve h.pool.config.chunkSize job.request fetched h.bridge).1 }
        pool := { h.pool with jobs := h.pool.jobs.filter (·.number ≠ job.number), free := h.pool.free + 1 } }
  | left (hstage : h.pool.stage = .settling) : Step h .leave { h with pool := { h.pool with stage := .finished } }

theorem move?_fetch_of_accepts {info : FetchInfo} (ha : Accepts h.channel) :
    h.move? (.fetch info) = some { h with channel := { h.channel with
      queue := h.channel.queue ++ [.ofFetch info], counters := h.channel.counters.arrive.dispatch } } := by
  have ha' : Accepts (h.channel.count Counters.arrive) := ha
  rw [move?, Channel.fetch, offer_of_accepts ha']
  rfl

theorem move?_fetch_of_not_accepts {info : FetchInfo} (ha : ¬Accepts h.channel) :
    h.move? (.fetch info) = some { h with
      bridge := (Answer.refuse (.ofFetch info) h.bridge).2
      channel := { h.channel with
        counters := h.channel.counters.arrive.reject.conclude (Answer.refuse (.ofFetch info) h.bridge).1 } } := by
  have ha' : ¬Accepts (h.channel.count Counters.arrive) := ha
  rw [move?, Channel.fetch, offer_of_not_accepts ha']
  rfl

theorem step_fetch {info : FetchInfo} (hm : h.move? (.fetch info) = some h') : Step h (.fetch info) h' := by
  by_cases ha : Accepts h.channel
  · obtain rfl := Option.some.inj ((move?_fetch_of_accepts ha).symm.trans hm)
    exact .accepted info ha
  · obtain rfl := Option.some.inj ((move?_fetch_of_not_accepts ha).symm.trans hm)
    exact .refused info ha

theorem step_of_move? (hm : h.move? m = some h') : Step h m h' := by
  cases m with
  | fetch info => exact step_fetch hm
  | cancel info =>
    obtain rfl := Option.some.inj hm
    exact .cancelled info
  | hangUp =>
    obtain rfl := Option.some.inj hm
    exact .hungUp
  | shutdown =>
    obtain rfl := Option.some.inj hm
    exact .shutDown
  | acquire =>
    simp only [move?, acquire?, Option.ite_none_right_eq_some, Option.some.injEq] at hm
    obtain ⟨⟨hstage, -, hfree⟩, rfl⟩ := hm
    exact .acquired hstage hfree
  | receive =>
    simp only [move?, receive?, Option.ite_none_right_eq_some, Option.map_eq_some_iff, Prod.exists] at hm
    obtain ⟨⟨hstage, -⟩, r, d, htake, rfl⟩ := hm
    obtain ⟨rest, hq, rfl⟩ := take?_eq_some.1 htake
    exact .received hstage hq
  | stopIntake =>
    simp only [move?, stopIntake?, Option.ite_none_right_eq_some, Option.some.injEq] at hm
    obtain ⟨hends, rfl⟩ := hm
    refine .stopped ?_
    unfold intakeEnds at hends
    split at hends
    · rename_i hstage
      exact .inl hstage
    · rename_i hstage
      exact .inr hstage
    · cases hends
  | drain =>
    simp only [move?, drain?, Option.ite_none_right_eq_some, Option.map_eq_some_iff, Prod.exists] at hm
    obtain ⟨hstage, r, d, htake, rfl⟩ := hm
    obtain ⟨rest, hq, rfl⟩ := take?_eq_some.1 htake
    exact .drained hstage hq
  | settle =>
    simp only [move?, settle?, Option.ite_none_right_eq_some, Option.some.injEq] at hm
    obtain ⟨⟨hstage, hq⟩, rfl⟩ := hm
    exact .settled hstage hq
  | finish number fetched =>
    simp only [move?, finish?, Option.map_eq_some_iff] at hm
    obtain ⟨job, hjob, rfl⟩ := hm
    have hnumber : job.number = number := by simpa using List.find?_some hjob
    subst hnumber
    exact .finished fetched (List.mem_of_find?_eq_some hjob)
  | leave =>
    simp only [move?, leave?, Option.ite_none_right_eq_some, Option.some.injEq] at hm
    obtain ⟨⟨hstage, -⟩, rfl⟩ := hm
    exact .left hstage

end OnDemand.Hydration
