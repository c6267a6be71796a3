import Mathlib.Logic.Relation
import OnDemand.Proofs.Bridge.Response
import OnDemand.Proofs.Hydration.Counting
import OnDemand.Proofs.Hydration.Plan
import OnDemand.Proofs.Hydration.Return

/-!
# Callbacks that take their time

A callback for wanted bytes runs on a thread of its own. It counts its request, queues it, and counts it once more; a
request that finds no room it has to fail before it returns. Anything may come between these parts. The counters add up
all the same, once the callbacks that are under way are counted in.
-/

namespace OnDemand

/-- One answer that ended in a failure is counted as such, after it was counted as an answer. -/
def Counters.mark (c : Counters) : Counters := { c with failed := c.failed + 1 }

namespace Hydration

variable {σ : Type} {h h' : Hydration σ} {m : Move} {capacity : Nat} {config : PoolConfig} {info : FetchInfo}

/-! ## The parts of a callback -/

/-- How far a callback for wanted bytes has come with its request. -/
inductive Fetching where
  /-- It is counted as arrived. -/
  | offering (info : FetchInfo)
  /-- It is in the queue. -/
  | queued
  /-- It has found no room. -/
  | turnedAway (r : Request)
  /-- It is counted as rejected. -/
  | failing (r : Request)
  /-- Its connection was not closed when that was looked up. -/
  | asking (r : Request)
  /-- Its failure was taken, or was not. -/
  | failed (taken : Bool)
  /-- Its failure is counted as an answer. -/
  | marking

namespace Fetching

/-- What a request without room is failed with. -/
def refusal (r : Request) : Completion := .failure r.offset .providerNotRunning

/-- The next part of a callback that has come so far, and how far it has come then, unless it has returned. -/
def advance [CloudFacility σ] (h : Hydration σ) : Fetching → Hydration σ × Option Fetching
  | offering info =>
    let (taken, c) := h.channel.offer (.ofFetch info)
    ({ h with channel := c }, some (if taken then queued else turnedAway (.ofFetch info)))
  | queued => ({ h with channel := h.channel.count Counters.dispatch }, none)
  | turnedAway r => ({ h with channel := h.channel.count Counters.reject }, some (failing r))
  | failing r => (h, some (if h.bridge.asks r.connection (refusal r) then asking r else failed false))
  | asking r =>
    let (answer, facility) :=
      CloudFacility.executeTransfer ((refusal r).operation r.connection r.transfer) h.bridge.facility
    ({ h with bridge := { h.bridge with facility } }, some (failed answer.isOk))
  | failed true => ({ h with channel := h.channel.count (·.conclude .answered) }, some marking)
  | failed false => ({ h with channel := h.channel.count (·.conclude .abandoned) }, none)
  | marking => ({ h with channel := h.channel.count Counters.mark }, none)

/-- Its request is counted neither as dispatched nor as rejected. -/
@[simp] def isUndecided : Fetching → Bool
  | offering _ | queued | turnedAway _ => true
  | failing _ | asking _ | failed _ | marking => false

/-- Its request has not been handed over to the queue, and is counted neither as answered nor as abandoned. -/
@[simp] def isUnanswered : Fetching → Bool
  | offering _ | turnedAway _ | failing _ | asking _ | failed _ => true
  | queued | marking => false

@[simp] def isQueued : Fetching → Bool
  | queued => true
  | _ => false

@[simp] def isMarking : Fetching → Bool
  | marking => true
  | _ => false

end Fetching

open Fetching

/-- A channel with its pool, and the callbacks for wanted bytes that have begun and not returned. -/
structure Traffic (σ : Type) where
  hydration : Hydration σ
  underway : List Fetching

variable [CloudFacility σ] {t t' : Traffic σ} {c : Counters} {l : Ledger} {r : Request} {x y : Fetching}
  {underway : List Fetching}

/-- A callback begins, or one that is under way goes on by one part. -/
inductive Traffic.Proceeds (t : Traffic σ) : Traffic σ → Prop where
  | arrive (info : FetchInfo) :
      Proceeds t ⟨{ t.hydration with channel := t.hydration.channel.count Counters.arrive },
        t.underway ++ [.offering info]⟩
  | advance {before after : List Fetching} {x : Fetching} (hx : t.underway = before ++ x :: after) :
      Proceeds t ⟨(x.advance t.hydration).1, before ++ (x.advance t.hydration).2.toList ++ after⟩

theorem advance_offering_of_accepts (ha : Accepts h.channel) :
    (offering info).advance h =
      ({ h with channel := { h.channel with queue := h.channel.queue ++ [.ofFetch info] } }, some queued) := by
  rw [advance, offer_of_accepts ha]
  rfl

theorem advance_offering_of_not_accepts (ha : ¬Accepts h.channel) :
    (offering info).advance h = (h, some (turnedAway (.ofFetch info))) := by
  rw [advance, offer_of_not_accepts ha]
  rfl

theorem advance_asking {answer : Except Status Unit} {facility : σ}
    (hcall : CloudFacility.executeTransfer ((refusal r).operation r.connection r.transfer) h.bridge.facility =
      (answer, facility)) :
    (asking r).advance h = ({ h with bridge := { h.bridge with facility } }, some (failed answer.isOk)) := by
  rw [advance, hcall]

theorem Traffic.Proceeds.pool_eq (hp : t.Proceeds t') : t'.hydration.pool = t.hydration.pool := by
  cases hp with
  | arrive info => rfl
  | @advance before after x hx =>
    cases x with
    | failed taken => cases taken <;> rfl
    | _ => rfl

/-- Of the bridge a callback only asks, at one point, that the facility take a failure. -/
theorem Traffic.Proceeds.bridge_eq (hp : t.Proceeds t') :
    t'.hydration.bridge = t.hydration.bridge ∨ ∃ r : Request, t'.hydration.bridge = { t.hydration.bridge with
      facility := (CloudFacility.executeTransfer ((refusal r).operation r.connection r.transfer)
        t.hydration.bridge.facility).2 } := by
  cases hp with
  | arrive info => exact .inl rfl
  | @advance before after x hx =>
    cases x with
    | asking r => exact .inr ⟨r, rfl⟩
    | failed taken => cases taken <;> exact .inl rfl
    | _ => exact .inl rfl

theorem Traffic.Proceeds.live_eq (hp : t.Proceeds t') : t'.hydration.bridge.live = t.hydration.bridge.live := by
  rcases hp.bridge_eq with he | ⟨r, he⟩ <;> rw [he]

/-! ## A callback without a pause -/

theorem refuse_of_not_asks {b : Bridge σ} (hasks : b.asks r.connection (refusal r) = false) :
    Answer.refuse r b = (.abandoned, b) := by
  have hsame : (b.deliver r.connection r.transfer (refusal r)).2 = b := Bridge.deliver_not_asked hasks
  rw [Answer.refuse, Answer.run, Answer.send]
  cases hdeliver : b.deliver r.connection r.transfer (refusal r) with
  | mk answer b' =>
    obtain rfl : b' = b := by rw [← hsame, hdeliver]
    cases answer with
    | ok u => simp [Bridge.asked_of_deliver_ok (congrArg Prod.fst hdeliver)] at hasks
    | error e =>
      rw [refusal] at hdeliver
      rw [hdeliver]

theorem refuse_of_asks {b : Bridge σ} (hasks : b.asks r.connection (refusal r) = true)
    {answer : Except Status Unit} {facility : σ}
    (hcall : CloudFacility.executeTransfer ((refusal r).operation r.connection r.transfer) b.facility =
      (answer, facility)) :
    Answer.refuse r b = (if answer.isOk then .failed else .abandoned, { b with facility }) := by
  have hdeliver : b.deliver r.connection r.transfer (refusal r) =
      (answer.mapError (.classify r.connection r.transfer), { b with facility }) := by
    rw [Bridge.deliver_asked hasks, Bridge.ask, hcall]
  rw [refusal] at hdeliver
  rw [Answer.refuse, Answer.run, Answer.send, hdeliver]
  cases answer <;> rfl

theorem proceeds_latest (hx : x.advance h = (h', some y)) :
    Traffic.Proceeds ⟨h, underway ++ [x]⟩ ⟨h', underway ++ [y]⟩ := by
  have hp : Traffic.Proceeds ⟨h, underway ++ [x]⟩ _ := .advance rfl
  rwa [hx, List.append_nil] at hp

theorem proceeds_return (hx : x.advance h = (h', none)) : Traffic.Proceeds ⟨h, underway ++ [x]⟩ ⟨h', underway⟩ := by
  have hp : Traffic.Proceeds ⟨h, underway ++ [x]⟩ _ := .advance rfl
  rwa [hx, Option.toList_none, List.append_nil, List.append_nil] at hp

/-- A callback that nothing comes between is the move of the channel. -/
theorem proceeds_fetch (hm : h.move? (.fetch info) = some h') (underway : List Fetching) :
    Relation.ReflTransGen Traffic.Proceeds ⟨h, underway⟩ ⟨h', underway⟩ := by
  have hrun : Relation.ReflTransGen Traffic.Proceeds ⟨h, underway⟩ _ := .single (.arrive info)
  cases step_of_move? hm with
  | accepted info ha =>
    have ha' : Accepts (h.channel.count Counters.arrive) := ha
    exact (hrun.tail (proceeds_latest (advance_offering_of_accepts ha'))).tail (proceeds_return rfl)
  | refused info ha =>
    have ha' : ¬Accepts (h.channel.count Counters.arrive) := ha
    have hrun := hrun.tail (proceeds_latest (advance_offering_of_not_accepts ha'))
    have hrun := (hrun.tail (proceeds_latest rfl)).tail (proceeds_latest rfl)
    cases hasks : h.bridge.asks (Request.ofFetch info).connection (refusal (.ofFetch info)) with
    | false =>
      rw [refuse_of_not_asks hasks]
      simp only [Channel.count, hasks, Bool.false_eq_true, if_false] at hrun
      exact hrun.tail (proceeds_return rfl)
    | true =>
      simp only [Channel.count, hasks, if_true] at hrun
      cases hcall : CloudFacility.executeTransfer ((refusal (.ofFetch info)).operation (Request.ofFetch info).connection
          (Request.ofFetch info).transfer) h.bridge.facility with
      | mk answer facility =>
        rw [refuse_of_asks hasks hcall]
        have hrun := hrun.tail (proceeds_latest (advance_asking hcall))
        cases answer with
        | ok u => exact (hrun.tail (proceeds_latest rfl)).tail (proceeds_return rfl)
        | error s => exact hrun.tail (proceeds_return rfl)

/-! ## The counters while callbacks are under way -/

/-- Had each request been counted when it was let into the queue, and those without room not at all, the counters would be
`c` and the ledger `l`. The callbacks under way make up the difference. -/
structure Tallied (capacity : Nat) (config : PoolConfig) (t : Traffic σ) (c : Counters) (l : Ledger) : Prop where
  reaches : Reaches capacity config (t.hydration.recount c) l
  roomy : c.rejected = 0
  dispatched : t.hydration.channel.counters.dispatched + t.underway.countP isQueued = c.dispatched
  arrived : t.hydration.channel.counters.arrived + t.underway.countP isQueued =
    c.arrived + t.hydration.channel.counters.rejected + t.underway.countP isUndecided
  concluded : t.hydration.channel.counters.answered + t.hydration.channel.counters.abandoned +
      t.underway.countP isUnanswered + t.underway.countP isQueued =
    c.answered + c.abandoned + t.hydration.channel.counters.rejected + t.underway.countP isUndecided
  failed : t.hydration.channel.counters.failed + t.underway.countP isMarking ≤ t.hydration.channel.counters.answered

theorem Tallied.advance {before after : List Fetching} (ht : Tallied capacity config ⟨h, before ++ x :: after⟩ c l) :
    ∃ c' l', Tallied capacity config ⟨(x.advance h).1, before ++ (x.advance h).2.toList ++ after⟩ c' l' := by
  obtain ⟨hreaches, hroomy, hdispatched, harrived, hconcluded, hfailed⟩ := ht
  simp only [List.countP_append, List.countP_cons] at hdispatched harrived hconcluded hfailed
  -- `c` and `l` go on only where a request is let into the queue; the other parts make up for what they count.
  cases x with
  | offering info =>
    by_cases ha : Accepts h.channel
    · have ha' : Accepts (h.recount c).channel := ha
      rw [advance_offering_of_accepts ha]
      refine ⟨c.arrive.dispatch, _, hreaches.move (move?_fetch_of_accepts ha'), hroomy, ?_, ?_, ?_, ?_⟩ <;>
        simp [Counters.arrive, Counters.dispatch, List.countP_cons] at hdispatched harrived hconcluded hfailed ⊢ <;> omega
    · rw [advance_offering_of_not_accepts ha]
      refine ⟨c, l, hreaches, hroomy, ?_, ?_, ?_, ?_⟩ <;>
        simp [List.countP_cons] at hdispatched harrived hconcluded hfailed ⊢ <;> omega
  | failing r =>
    rw [Fetching.advance]
    split <;> refine ⟨c, l, hreaches, hroomy, ?_, ?_, ?_, ?_⟩ <;>
      simp [List.countP_cons] at hdispatched harrived hconcluded hfailed ⊢ <;> omega
  | asking r =>
    cases hcall : CloudFacility.executeTransfer ((refusal r).operation r.connection r.transfer) h.bridge.facility with
    | mk answer facility =>
      rw [advance_asking hcall]
      refine ⟨c, l, hreaches.elsewhere _, hroomy, ?_, ?_, ?_, ?_⟩ <;>
        simp [List.countP_cons] at hdispatched harrived hconcluded hfailed ⊢ <;> omega
  | queued | turnedAway r | marking =>
    refine ⟨c, l, hreaches, hroomy, ?_, ?_, ?_, ?_⟩ <;>
      simp [Fetching.advance, Channel.count, Counters.dispatch, Counters.reject, Counters.mark, List.countP_cons]
        at hdispatched harrived hconcluded hfailed ⊢ <;> omega
  | failed taken =>
    cases taken <;> refine ⟨c, l, hreaches, hroomy, ?_, ?_, ?_, ?_⟩ <;>
      simp [Fetching.advance, Channel.count, Counters.conclude, List.countP_cons]
        at hdispatched harrived hconcluded hfailed ⊢ <;> omega

theorem Tallied.work (ht : Tallied capacity config ⟨h, underway⟩ c l) (hm : h.move? m = some h')
    (hfetch : ∀ info, m ≠ .fetch info) : ∃ c' l', Tallied capacity config ⟨h', underway⟩ c' l' := by
  obtain ⟨hreaches, hroomy, hdispatched, harrived, hconcluded, hfailed⟩ := ht
  -- A request that is taken back is counted where no equation looks.
  cases hcancel : m.isCancel with
  | true =>
    cases m with
    | cancel info =>
      obtain rfl := Option.some.inj hm
      exact ⟨c, l, hreaches, hroomy, hdispatched, harrived, hconcluded, hfailed⟩
    | _ => cases hcancel
  | false =>
    obtain ⟨o, ho⟩ := move?_recount hm hfetch hcancel
    have hcounters := counters_of_recount hm ho
    rcases o with - | x
    · refine ⟨c, _, hreaches.move (ho c), hroomy, ?_, ?_, ?_, ?_⟩ <;> simpa [hcounters, Counters.note]
    · refine ⟨c.conclude x, _, hreaches.move (ho c), (rejected_conclude c x).trans hroomy, ?_, ?_, ?_, ?_⟩ <;>
        cases x <;> simp [hcounters, Counters.note, Counters.conclude] at hdispatched harrived hconcluded hfailed ⊢ <;>
        omega

theorem Tallied.elsewhere (ht : Tallied capacity config ⟨h, underway⟩ c l) (b : Bridge σ) :
    Tallied capacity config ⟨{ h with bridge := b }, underway⟩ c l :=
  { ht with reaches := ht.reaches.elsewhere b }

/-- Every request is dispatched or rejected, unless its callback has still to tell; and it is answered or given up, waits or
is being served, unless its callback has it still. Failures are answers. -/
theorem Tallied.arrived_eq (ht : Tallied capacity config t c l) :
    t.hydration.channel.counters.arrived =
      t.hydration.channel.counters.dispatched + t.hydration.channel.counters.rejected +
        t.underway.countP isUndecided ∧
    t.hydration.channel.counters.arrived =
      t.hydration.channel.counters.answered + t.hydration.channel.counters.abandoned +
        t.hydration.channel.queue.length + t.hydration.pool.jobs.length + t.underway.countP isUnanswered ∧
    t.hydration.channel.counters.failed ≤ t.hydration.channel.counters.answered := by
  obtain ⟨hreaches, hroomy, hdispatched, harrived, hconcluded, hfailed⟩ := ht
  obtain ⟨hhanded, hended⟩ := (balanced_of_reaches hreaches).arrived_eq
  simp only [recount] at hhanded hended
  omega

end Hydration

end OnDemand
