import OnDemand.Session.State

/-!
# Tasks in virtual time

Tasks that are ready run one after the other, in the order in which they became ready; the clock stands still meanwhile,
and jumps to the next timer when none is left. A script that waits for a time is served before the tasks of that time.
-/

namespace OnDemand.Session

/-! ## Pools and jobs -/

/-- Runs one function of a pool, its channel and the bridge. -/
def onHydration (n : Nat) (f : Hydration (Recorded Facility) → Hydration (Recorded Facility)) (s : Session) : Session :=
  match s.crews.get? n with
  | none => s
  | some crew =>
    match s.channels.get? crew.channel with
    | none => s
    | some c =>
      let h := f ⟨s.bridge, c.channel, crew.pool⟩
      { s with
        bridge := h.bridge
        channels := s.channels.insert crew.channel { c with channel := h.channel }
        crews := s.crews.insert n { crew with pool := h.pool } }

/-- The moves of the pool's loop until it has to wait. Each round takes a permit or a request, so there are at most
two for each request in the queue, and a few at the end. -/
def advanceAll : Nat → Hydration (Recorded Facility) → Hydration (Recorded Facility)
  | 0, h => h
  | fuel + 1, h =>
    match h.advance? with
    | none => h
    | some h => advanceAll fuel h

def advancePool (h : Hydration (Recorded Facility)) : Hydration (Recorded Facility) :=
  advanceAll (2 * h.channel.queue.length + 8) h

def discardFeed (channel : Nat) (s : Session) : Session :=
  match s.channels.get? channel with
  | none => s
  | some c => s.setChannel channel c.channel.discard

/-- Lets a pool go on; requests that it takes become jobs, and a pool that has returned, or that was given up, drops its
feed. -/
def runCrew (n : Nat) (s : Session) : Session :=
  match s.crews.get? n with
  | none => s
  | some before =>
    if before.pool.stage = .finished then s.discardFeed before.channel
    else
      let s := s.onHydration n advancePool
      match s.crews.get? n with
      | none => s
      | some after =>
        let taken := (List.range after.pool.nextJob).drop before.pool.nextJob
        let s := s.wakeAll (taken.map (.job n))
        let s := { s with crews := s.crews.insert n { after with
          jobs := taken.foldl (fun t job => t.insert job .fresh) after.jobs
          endedAt := if after.pool.stage = .finished then some s.now else none } }
        if after.pool.stage = .finished then (s.discardFeed after.channel).wake .daemon else s

/-- Answers the request of a job; the pool goes on if it waits for the permit. -/
def finishJob (n job : Nat) (fetched : Fetched) (s : Session) : Session :=
  let s := s.onHydration n fun h => (h.finish? job fetched).getD h
  match s.crews.get? n with
  | none => s
  | some crew =>
    let s := { s with crews := s.crews.insert n { crew with jobs := crew.jobs.erase job } }
    let s := if crew.pool.stage = .acquiring ∨ crew.pool.stage = .settling then s.wake (.crew n) else s
    s.settleReads

/-- What a source returns for a request, and after how long. Files are read only once the other tasks have run. -/
def fetchFrom (source : Source) (r : Request) (s : Session) : Option Nat × Fetched :=
  match source with
  | .rules rules =>
    match rules.find? (·.identity = r.identity) with
    | none => (none, .failed)
    | some rule =>
      let fetched := match rule.reply with
        | .failed => .failed
        | .fixed bytes => .data bytes
        | .object bytes => .data (bytes.window r.offset r.length)
      (if rule.delay = 0 then none else some rule.delay, fetched)
  | .store =>
    let fetched := match s.store.contentRange r.identity r.offset r.length with
      | .ok bytes => .data bytes
      | .error _ => .failed
    match s.backend with
    | .memory _ => (none, fetched)
    | .files _ => (some 0, fetched)

def setJob (n job : Nat) (state : JobState) (s : Session) : Session :=
  { s with crews := s.crews.modify n fun crew => { crew with jobs := crew.jobs.insert job state } }

/-- Lets a job go on: it asks its source, waits for the source or the timeout, and answers. A source that is in time to
the millisecond wins. -/
def runJob (n job : Nat) (s : Session) : Session :=
  match s.crews.get? n with
  | none => s
  | some crew =>
    match crew.jobs.get? job, crew.pool.jobs.find? (·.number = job) with
    | some .fresh, some j =>
      match fetchFrom crew.source j.request s with
      | (none, fetched) => s.finishJob n job fetched
      | (some delay, fetched) =>
        if crew.pool.config.timeout = 0 then s.finishJob n job .timedOut
        else s.setJob n job (.fetching (s.now + delay) (s.now + crew.pool.config.timeout) fetched)
    | some (.fetching due deadline fetched), some _ =>
      if due ≤ s.now then s.finishJob n job fetched
      else if deadline ≤ s.now then s.finishJob n job .timedOut
      else s
    | _, _ => s

/-! ## The daemon -/

def addCrew (channel : Nat) (pool : Pool) (source : Source) (s : Session) : Nat × Session :=
  let n := s.crews.size
  (n, ({ s with crews := s.crews.insert n ⟨channel, pool, source, ∅, none⟩ }).wake (.crew n))

/-- A pool that cannot be made drops its feed at once. -/
def startCrew (channel : Nat) (pool : Pool) (source : Source) (s : Session) : Nat × Session :=
  let (n, s) := s.addCrew channel pool source
  if pool.config.concurrency ≤ PoolConfig.maxConcurrency then (n, s)
  else
    let s := { s with crews := s.crews.modify n fun crew =>
      { crew with pool := { crew.pool with stage := .finished }, endedAt := some s.now } }
    (n, s.discardFeed channel)

def endDaemon (result : Except ServiceError Counters) (s : Session) : Session :=
  { s with daemon := some (.ended s.now result) }

/-- The number of workers where the configuration leaves it to the machine. -/
def processors : Nat := 4

/-- Joins and populates the root, and starts the pool and the refreshes. -/
def startDaemon (config : Config) (s : Session) : Session :=
  let root := config.syncRoot.path
  let (made, files) := Service.makeRoot root s.files
  let s := { s with files }
  match made with
  | .error e => s.endDaemon (.error e)
  | .ok () =>
    let (channel, s) := s.addChannel config.hydration.queueCapacity false false
    match s.act (Service.join config.syncRoot s.files (some channel)) with
    | (.error e, s) => s.endDaemon (.error e)
    | (.ok connection, s) =>
      let v := Service.start config processors s.store connection s.bridge
      let (crew, s) := { s with bridge := v.hydration.bridge }.startCrew channel v.hydration.pool .store
      let every := config.catalog.refreshSecs * 1000
      let refreshing := if every = 0 then none else some ⟨every, s.now + every, false, false⟩
      ({ s with daemon := some (.serving ⟨config, connection, v.catalog, channel, crew, refreshing⟩) }).wake .daemon

/-- The service that the daemon gives, put together from the session. -/
def service? (d : Serving) (s : Session) : Option (Service (Recorded Facility)) := do
  let c ← s.channels.get? d.channel
  let crew ← s.crews.get? d.crew
  return ⟨d.config, d.connection, d.catalog, s.bridge, c.channel, crew.pool⟩

/-- Puts a service back into the session. -/
def setService (d : Serving) (v : Service (Recorded Facility)) (s : Session) : Session :=
  { s.setChannel d.channel v.hydration.channel with
    bridge := v.hydration.bridge
    crews := s.crews.modify d.crew fun crew => { crew with pool := v.hydration.pool }
    daemon := some (.serving { d with catalog := v.catalog }) }

def crewEnded (n : Nat) (s : Session) : Bool := (s.crews.get? n).any (·.endedAt.isSome)

/-- Calls the shutdown of a pool. -/
def stopCrew (n : Nat) (s : Session) : Session :=
  ({ s with crews := s.crews.modify n fun crew => { crew with pool := { crew.pool with stopping := true } } }).wake (.crew n)

/-- Once told to stop, the daemon stops the pool and the refreshes, waits for both, and leaves the root. -/
def runDaemon (s : Session) : Session :=
  match s.daemon with
  | some (.starting config) => s.startDaemon config
  | some (.serving d) =>
    match s.service? d with
    | none => s
    | some v =>
      if s.now < s.daemonStop then s
      else if !v.hydration.pool.stopping then
        let refreshing := d.refreshing.map fun r => { r with stopping := true }
        (s.setService { d with refreshing } v.stop).wakeAll [.crew d.crew, .refresh, .daemon]
      else if !s.crewEnded d.crew ∨ d.refreshing.any (!·.ended) then s
      else
        let (counters, bridge) := v.close
        { s with bridge }.settleReads.hangUp.endDaemon (.ok counters)
  | _ => s

/-- Refreshes the catalog when its time has come, unless the daemon stops. -/
def runRefresh (s : Session) : Session :=
  match s.daemon with
  | some (.serving d) =>
    match d.refreshing, s.service? d with
    | some r, some v =>
      if r.ended then s
      else if r.stopping then
        ({ s with daemon := some (.serving { d with refreshing := some { r with ended := true } }) }).wake .daemon
      else if r.next ≤ s.now then
        s.setService { d with refreshing := some { r with next := r.next + r.every } } (v.refresh s.store)
      else s
    | _, _ => s
  | _ => s

/-! ## The clock -/

def run (s : Session) : Task → Session
  | .crew n => s.runCrew n
  | .job n job => s.runJob n job
  | .daemon => s.runDaemon
  | .refresh => s.runRefresh

/-- Runs the first task that is ready. -/
def runNext? (s : Session) : Option Session :=
  match s.ready with
  | [] => none
  | t :: rest => some ({ s with ready := rest }.run t)

/-- The time at which a job goes on by itself. -/
def JobState.timer? : JobState → Option Nat
  | .fresh => none
  | .fetching due deadline _ => some (min due deadline)

/-- The tasks that wait for a time, with that time. -/
def timers (s : Session) : List (Nat × Task) :=
  let jobs := s.crews.toList.flatMap fun (n, crew) =>
    crew.jobs.toList.filterMap fun (job, state) => (JobState.timer? state).map (·, .job n job)
  let refresh := match s.daemon with
    | some (.serving d) =>
      match d.refreshing with
      | some r => if r.ended || r.stopping then [] else [(r.next, .refresh)]
      | none => []
    | _ => []
  let stop := match s.daemon with
    | some (.serving d) =>
      if (s.crews.get? d.crew).any (·.pool.stopping) then [] else [(s.daemonStop, .daemon)]
    | _ => []
  jobs ++ refresh ++ stop

/-- Sets the clock to `time` and makes the tasks ready that wait for it or an earlier time. -/
def tick (time : Nat) (s : Session) : Session :=
  let due := (timers s).filterMap fun (moment, task) => if moment ≤ time then some task else none
  { s with now := time }.wakeAll due

/-- An upper bound on the tasks that can run before the clock has to move. -/
def pendingWork (s : Session) : Nat :=
  let queued := s.channels.values.foldl (fun n c => n + c.channel.queue.length) 0
  let jobs := s.crews.values.foldl (fun n crew => n + crew.jobs.size) 0
  16 + 4 * (s.ready.length + queued + jobs)

/-- Runs tasks until `stop` holds or none is ready. -/
def runReadyUntil (stop : Session → Bool) : Nat → Session → Session
  | 0, s => s
  | fuel + 1, s =>
    if stop s then s
    else match s.runNext? with
      | none => s
      | some s => runReadyUntil stop fuel s

def runReady (s : Session) : Session := runReadyUntil (fun _ => false) s.pendingWork s

/-- Lets time pass up to `deadline`, or until `stop` holds. -/
def passUntil (stop : Session → Bool) (deadline : Nat) : Nat → Session → Session
  | 0, s => s
  | fuel + 1, s =>
    let s := runReadyUntil stop s.pendingWork s
    if stop s then s
    else match ((timers s).map Prod.fst).min? with
      | none => s.tick deadline
      | some time =>
        if deadline ≤ time then s.tick deadline else passUntil stop deadline fuel (s.tick (max time s.now))

/-- Each round moves the clock or ends a job, so this many rounds are enough to reach `deadline`. -/
def rounds (deadline : Nat) (s : Session) : Nat := deadline - s.now + s.pendingWork

/-- Lets time pass up to `deadline`. The tasks of that very time are ready but have not run. -/
def waitUntil (deadline : Nat) (s : Session) : Session :=
  if deadline ≤ s.now then s else passUntil (fun _ => false) deadline (s.rounds deadline) s

end OnDemand.Session
