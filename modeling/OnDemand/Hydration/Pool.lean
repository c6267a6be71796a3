import OnDemand.Hydration.Channel

/-!
# The worker pool

The pool takes a permit, then a request, and serves it in a job of its own; the permit comes back when the job
has answered. A shutdown or the end of the channel stops the intake: what is still queued is failed, and the pool
returns once enough permits are back.
-/

namespace OnDemand

structure PoolConfig where
  concurrency : Nat
  chunkSize : Nat
  /-- Milliseconds that a fetch may take. -/
  timeout : Nat
deriving DecidableEq, Repr, Inhabited

namespace PoolConfig

def normalized (c : PoolConfig) : PoolConfig :=
  { c with concurrency := max c.concurrency 1, chunkSize := alignedChunk c.chunkSize }

/-- The most permits that a pool can be made with. -/
def maxConcurrency : Nat := 2305843009213693951

/-- The permits that a pool waits for before it returns: its concurrency in a 32-bit word. -/
def awaited (c : PoolConfig) : Nat := c.concurrency % 4294967296

end PoolConfig

inductive Stage where
  /-- Waiting for a permit. -/
  | acquiring
  /-- Waiting for a request, with a permit in hand. -/
  | receiving
  /-- Failing what is left in the queue. -/
  | draining
  /-- Waiting for the jobs. -/
  | settling
  | finished
deriving DecidableEq, Repr, Inhabited

/-- A request being served. -/
structure Job where
  number : Nat
  request : Request
deriving DecidableEq, Repr, Inhabited

structure Pool where
  config : PoolConfig
  stage : Stage
  /-- Permits that neither the pool nor a job holds. -/
  free : Nat
  jobs : List Job
  /-- The number of the next job. -/
  nextJob : Nat
  /-- Whether the shutdown has been called. -/
  stopping : Bool
deriving DecidableEq, Repr, Inhabited

def Pool.create (config : PoolConfig) : Pool :=
  let config := config.normalized
  ⟨config, .acquiring, config.concurrency, [], 0, false⟩

/-- A channel, the pool that works on it, and the bridge that both answer through. -/
structure Hydration (σ : Type) where
  bridge : Bridge σ
  channel : Channel
  pool : Pool

namespace Hydration

variable {σ : Type} [CloudFacility σ]

/-- One thing that can happen to a channel and its pool. -/
inductive Move where
  | fetch (info : FetchInfo)
  | cancel (info : CancelInfo)
  /-- No callback can come any more. -/
  | hangUp
  | shutdown
  | acquire
  | receive
  | stopIntake
  | drain
  | settle
  | finish (job : Nat) (fetched : Fetched)
  | leave
deriving DecidableEq, Repr

/-- Whether the pool takes no more requests: shutdown was called, or the channel has ended. -/
def intakeEnds (h : Hydration σ) : Bool :=
  match h.pool.stage with
  | .acquiring => h.pool.stopping
  | .receiving => h.pool.stopping || (!h.channel.isOpen && h.channel.queue.isEmpty)
  | _ => false

def acquire? (h : Hydration σ) : Option (Hydration σ) :=
  if h.pool.stage = .acquiring ∧ !h.pool.stopping ∧ 0 < h.pool.free then
    some { h with pool := { h.pool with stage := .receiving, free := h.pool.free - 1 } }
  else none

/-- Takes the oldest request into a new job, which keeps the permit. -/
def receive? (h : Hydration σ) : Option (Hydration σ) :=
  if h.pool.stage = .receiving ∧ !h.pool.stopping then
    h.channel.take?.map fun (r, c) =>
      { h with
        channel := c
        pool := { h.pool with
          stage := .acquiring
          jobs := h.pool.jobs ++ [⟨h.pool.nextJob, r⟩]
          nextJob := h.pool.nextJob + 1 } }
  else none

def stopIntake? (h : Hydration σ) : Option (Hydration σ) :=
  if h.intakeEnds then
    let held := if h.pool.stage = .receiving then 1 else 0
    some { h with
      channel := h.channel.close
      pool := { h.pool with stage := .draining, free := h.pool.free + held } }
  else none

/-- Fails the oldest request still queued. -/
def drain? (h : Hydration σ) : Option (Hydration σ) :=
  if h.pool.stage = .draining then
    h.channel.take?.map fun (r, c) =>
      let (conclusion, b) := Answer.refuse r h.bridge
      { h with bridge := b, channel := c.count (·.conclude conclusion) }
  else none

def settle? (h : Hydration σ) : Option (Hydration σ) :=
  if h.pool.stage = .draining ∧ h.channel.queue = [] then some { h with pool := { h.pool with stage := .settling } }
  else none

/-- Answers the request of a job with what the source returned, and gives its permit back. -/
def finish? (number : Nat) (fetched : Fetched) (h : Hydration σ) : Option (Hydration σ) :=
  (h.pool.jobs.find? (·.number = number)).map fun job =>
    let (conclusion, b) := Answer.serve h.pool.config.chunkSize job.request fetched h.bridge
    { bridge := b
      channel := h.channel.count (·.conclude conclusion)
      pool := { h.pool with jobs := h.pool.jobs.filter (·.number ≠ number), free := h.pool.free + 1 } }

def leave? (h : Hydration σ) : Option (Hydration σ) :=
  if h.pool.stage = .settling ∧ h.pool.config.awaited ≤ h.pool.free then
    some { h with pool := { h.pool with stage := .finished } }
  else none

/-- The state after a move, if the move is possible. -/
def move? (h : Hydration σ) : Move → Option (Hydration σ)
  | .fetch info =>
    let (c, b) := h.channel.fetch info h.bridge
    some { h with channel := c, bridge := b }
  | .cancel info => some { h with channel := h.channel.cancel info }
  | .hangUp => some { h with channel := h.channel.close }
  | .shutdown => some { h with pool := { h.pool with stopping := true } }
  | .acquire => h.acquire?
  | .receive => h.receive?
  | .stopIntake => h.stopIntake?
  | .drain => h.drain?
  | .settle => h.settle?
  | .finish job fetched => h.finish? job fetched
  | .leave => h.leave?

/-- One step of the pool's own loop: of its moves, the one that is possible now. The shutdown comes first. -/
def advance? (h : Hydration σ) : Option (Hydration σ) :=
  [Move.stopIntake, .acquire, .receive, .drain, .settle, .leave].findSome? h.move?

end Hydration

end OnDemand
