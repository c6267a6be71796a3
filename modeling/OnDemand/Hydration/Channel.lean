import OnDemand.Hydration.Answer

/-!
# Hydration channels

A bounded queue between the callbacks of a connection and the workers. A callback never waits: a request that
finds the queue full or closed is failed on the spot.
-/

namespace OnDemand

structure Channel where
  capacity : Nat
  queue : List Request
  /-- Whether requests are taken in. -/
  isOpen : Bool
  counters : Counters
deriving DecidableEq, Repr, Inhabited

namespace Channel

def create (capacity : Nat) : Channel := ⟨max capacity 1, [], true, .zero⟩

/-- Takes in no more requests; those in the queue stay. -/
def close (c : Channel) : Channel := { c with isOpen := false }

/-- Closes and forgets the queue. -/
def discard (c : Channel) : Channel := { c with isOpen := false, queue := [] }

def count (c : Channel) (f : Counters → Counters) : Channel := { c with counters := f c.counters }

/-- Queues `r` if there is room, and tells whether there was. -/
def offer (r : Request) (c : Channel) : Bool × Channel :=
  if c.isOpen && c.queue.length < c.capacity then (true, { c with queue := c.queue ++ [r] }) else (false, c)

/-- The oldest request in the queue. -/
def take? (c : Channel) : Option (Request × Channel) :=
  match c.queue with
  | [] => none
  | r :: rest => some (r, { c with queue := rest })

theorem queue_offer {r : Request} {c d : Channel} (h : c.offer r = (true, d)) :
    d.queue = c.queue ++ [r] ∧ c.queue.length < c.capacity := by
  unfold offer at h
  split at h
  · rename_i hroom
    simp only [Bool.and_eq_true, decide_eq_true_eq] at hroom
    obtain ⟨_, rfl⟩ := Prod.mk.inj h
    exact ⟨rfl, hroom.2⟩
  · simp at h

theorem offer_refused {r : Request} {c d : Channel} (h : c.offer r = (false, d)) : d = c := by
  unfold offer at h
  split at h
  · simp at h
  · exact (Prod.mk.inj h).2.symm

theorem queue_take? {r : Request} {c d : Channel} (h : c.take? = some (r, d)) : c.queue = r :: d.queue := by
  unfold take? at h
  split at h
  · simp at h
  · rename_i hq
    obtain ⟨rfl, rfl⟩ := Prod.mk.inj (Option.some.inj h)
    exact hq

variable {σ : Type} [CloudFacility σ]

/-- Fails a request that found no room. -/
def reject (r : Request) (c : Channel) (b : Bridge σ) : Channel × Bridge σ :=
  let (conclusion, b) := Answer.refuse r b
  (c.count fun n => n.reject.conclude conclusion, b)

/-- The callback for wanted bytes. -/
def fetch (info : FetchInfo) (c : Channel) (b : Bridge σ) : Channel × Bridge σ :=
  let r := Request.ofFetch info
  match (c.count Counters.arrive).offer r with
  | (true, c) => (c.count Counters.dispatch, b)
  | (false, c) => c.reject r b

/-- The callback for bytes no longer wanted. It is only counted. -/
def cancel (_ : CancelInfo) (c : Channel) : Channel := c.count Counters.cancel

end Channel

end OnDemand
