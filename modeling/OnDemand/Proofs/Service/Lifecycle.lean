import OnDemand.Proofs.Hydration.Counting
import OnDemand.Proofs.Hydration.Return
import OnDemand.Proofs.Service.Turns

/-!
# The life of a served root

A root is joined, served and left. Whatever the order of the turns was while it was served, the root is left without a
connection, without pending transfers and with every request accounted for; a root that cannot be joined leaves connections
and placeholders alone.
-/

namespace OnDemand.Service

open Hydration (Traffic Fetching Tallied)

variable {config : Config} {processors : Nat} {files : FileTree} {capacity : Nat} {pool : PoolConfig}
  {b b' : Bridge Facility} {f : Facility} {t t' : Traffic Facility} {c : Counters} {l : Hydration.Ledger}
  {key : ConnectionKey} {root : Path}

/-! ## Serving a root -/

/-- One thing that can still happen while a root is left: a part of a callback for wanted bytes, a callback that takes a
request back, or a read of an application or the end of one. -/
inductive Late (t : Traffic Facility) : Traffic Facility → Prop where
  | part {t' : Traffic Facility} (hp : t.Proceeds t') : Late t t'
  | cancel (info : CancelInfo) {h' : Hydration Facility} (hm : t.hydration.move? (.cancel info) = some h') :
      Late t { t with hydration := h' }
  | beside (m : Facility.Move) (hm : m.isPassing = true) :
      Late t { t with hydration.bridge.facility := t.hydration.bridge.facility.next m }

abbrev Meanwhile : Traffic Facility → Traffic Facility → Prop := Relation.ReflTransGen Late

/-- What comes of serving a root. -/
structure Visit where
  connection : OpenConnection
  /-- The bridge as it was left, with the connection still open. -/
  left : Bridge Facility
  counters : Counters
  /-- The callbacks for wanted bytes that had begun and not returned when the counters were read. -/
  underway : List Fetching

/-- The bridge when the facility has been told to let go of the connection. The live table has it as closed by then. -/
def release (key : ConnectionKey) (b : Bridge Facility) : Bridge Facility :=
  (Bridge.ask (CloudFacility.disconnectRoot key) id b).2

/-- The bridge after leaving, when the root is unregistered if so configured. -/
def forget (config : Config) (b : Bridge Facility) : Bridge Facility :=
  if config.syncRoot.unregisterOnExit then (Bridge.unregister config.syncRoot.path b).2 else b

/-- The root is left: its connection is closed, and it is unregistered if so configured. Nobody waits for callbacks, so
they may go on between these steps, up to the moment at which the counters are read. -/
inductive Leaves (config : Config) (key : ConnectionKey) (t : Traffic Facility) : Traffic Facility → Prop where
  | intro {t₁ t₂ t₃ : Traffic Facility}
      (hretired : Meanwhile { t with hydration.bridge.live := t.hydration.bridge.live.retire key } t₁)
      (hreleased : Meanwhile { t₁ with hydration.bridge := release key t₁.hydration.bridge } t₂)
      (hforgotten : Meanwhile { t₂ with hydration.bridge := forget config t₂.hydration.bridge } t₃) :
      Leaves config key t t₃

/-- What can come of serving the configured root from the bridge `b` on, and the bridge after it. Callbacks may come as soon
as the facility has accepted the connection. -/
inductive Serves (config : Config) (processors : Nat) (files : FileTree) (b : Bridge Facility) :
    Except ServiceError Visit → Bridge Facility → Prop where
  | unmade {e : ServiceError} (hmake : (makeRoot config.syncRoot.path files).1 = .error e) :
      Serves config processors files b (.error e) b
  | unjoined {e : ServiceError} {handler : Handler} {b' : Bridge Facility}
      (hmake : (makeRoot config.syncRoot.path files).1 = .ok ())
      (hjoin : join config.syncRoot (makeRoot config.syncRoot.path files).2 handler b = (.error e, b')) :
      Serves config processors files b (.error e) b'
  | served {handler : Handler} {b₀ b₁ : Bridge Facility} {key : ConnectionKey} {t₀ t₁ t₂ : Traffic Facility}
      (hmake : (makeRoot config.syncRoot.path files).1 = .ok ())
      (hregister : Bridge.register (makeRoot config.syncRoot.path files).2 config.syncRoot.path
        config.syncRoot.displayName config.syncRoot.providerVersion b = (.ok (), b₀))
      (haccept : Bridge.accept config.syncRoot.path handler b₀ = (.ok key, b₁))
      (hearly : Turns ⟨⟨b₁, .create config.hydration.queueCapacity, .create (config.pool processors)⟩, []⟩ t₀)
      (hserved : Turns { t₀ with hydration.bridge := t₀.hydration.bridge.record key config.syncRoot.path } t₁)
      (hstopped : t₁.hydration.pool.stopping = true) (hreturned : t₁.hydration.pool.stage = .finished)
      (hleaves : Leaves config key t₁ t₂) :
      Serves config processors files b
        (.ok ⟨⟨key, config.syncRoot.path⟩, t₁.hydration.bridge, t₂.hydration.channel.counters, t₂.underway⟩)
        t₂.hydration.bridge

/-! ## While a root is left -/

/-- `t'` has the pool and the live table of `t`, and a facility with the same roots and files. -/
structure Stays (t t' : Traffic Facility) : Prop where
  pool : t'.hydration.pool = t.hydration.pool
  live : t'.hydration.bridge.live = t.hydration.bridge.live
  persists : t.hydration.bridge.facility.Persists t'.hydration.bridge.facility

theorem Late.stays (h : Late t t') : Stays t t' := by
  cases h with
  | part hp => exact ⟨hp.pool_eq, hp.live_eq, hp.persists⟩
  | cancel info hm =>
    cases Hydration.step_of_move? hm
    exact ⟨rfl, rfl, .refl _⟩
  | beside m hm => exact ⟨rfl, rfl, Facility.persists_next _ hm⟩

theorem stays_meanwhile (h : Meanwhile t t') : Stays t t' := by
  induction h with
  | refl => exact ⟨rfl, rfl, .refl _⟩
  | tail _ hlate ih =>
    obtain ⟨hpool, hlive, hpersists⟩ := hlate.stays
    exact ⟨hpool.trans ih.pool, hlive.trans ih.live, ih.persists.trans hpersists⟩

theorem Leaves.pool_eq (hl : Leaves config key t t') : t'.hydration.pool = t.hydration.pool := by
  obtain ⟨hretired, hreleased, hforgotten⟩ := hl
  rw [(stays_meanwhile hforgotten).pool, (stays_meanwhile hreleased).pool, (stays_meanwhile hretired).pool]

/-- The connection `key` to `root` has been let go of. The root is registered and its placeholders are those of `f`, or
neither if it was `removed`. -/
structure Released (root : Path) (key : ConnectionKey) (removed : Bool) (f : Facility) (b : Bridge Facility) : Prop where
  closed : b.live.isClosed key = true
  gone : b.facility.connections.contains key = false
  free : b.facility.isConnected root = false
  ended : ∀ k t, b.facility.transfers.get? k = some t → t.connection = key → t.phase ≠ .pending
  registered : (b.facility.registration? root).isSome = !removed
  placeholders : ∀ path, b.facility.placeholder? path =
    if removed = true ∧ path.startsWith root = true then none else f.placeholder? path
  unregister : b.facility.faults .unregister = none

/-- Leaving a root unregisters it and removes what lies below it, or keeps both, as configured. -/
theorem Released.forget (hr : Released config.syncRoot.path key false f b) :
    Released config.syncRoot.path key config.syncRoot.unregisterOnExit f (Service.forget config b) := by
  unfold Service.forget
  cases config.syncRoot.unregisterOnExit with
  | false => exact hr
  | true =>
    have hcall := Facility.unregister_ok.2 ⟨hr.unregister, hr.registered, hr.free, rfl⟩
    have hkept : ∀ path, b.facility.placeholder? path = f.placeholder? path := by simpa using hr.placeholders
    rw [if_pos rfl, Bridge.unregister, Bridge.ask,
      show CloudFacility.unregisterRoot config.syncRoot.path b.facility = _ from hcall]
    refine ⟨hr.closed, hr.gone, hr.free, hr.ended, ?_, fun path => ?_, hr.unregister⟩
    · simp [Facility.registration?]
    · simp only [Facility.placeholder?] at hkept
      simp only [Facility.placeholder?, Table.get?_filter, hkept, true_and, Path.startsWith]
      cases config.syncRoot.path.route.isPrefixOf path.route <;> cases f.placeholders.get? path.route <;> rfl

/-- A service that was started on the root, told to stop, and closed when its pool had returned. -/
theorem serves_of_steps {objects : String → Option Bytes} {v : Service Facility} {store : ObjectStore} {handler : Handler}
    {connection : OpenConnection} (hmake : (makeRoot config.syncRoot.path files).1 = .ok ())
    (hjoin : join config.syncRoot (makeRoot config.syncRoot.path files).2 handler b = (.ok connection, b'))
    (hsteps : Steps objects (start config processors store connection b') v)
    (hstopped : v.hydration.pool.stopping = true) (hreturned : v.hydration.pool.stage = .finished) :
    Serves config processors files b (.ok ⟨connection, v.hydration.bridge, v.close.1, []⟩) v.close.2 := by
  obtain ⟨hturns, hconfig, hconnection⟩ := hsteps.turns
  have hpopulated := composes_turns.populate store config.storage.remotePrefix connection.root b'
    ⟨⟨b', .create config.hydration.queueCapacity, .create (config.pool processors)⟩, []⟩ rfl
  cases joining_of_join hjoin with
  | @joined key b₀ b₁ hregister haccept =>
    have hclose : v.close = (v.hydration.channel.counters,
        forget config (v.hydration.bridge.disconnect ⟨key, config.syncRoot.path⟩)) := by
      rw [close, hconfig, hconnection]
      rfl
    rw [hclose]
    exact .served hmake hregister haccept .refl (hpopulated.trans hturns) hstopped hreturned
      (.intro .refl .refl .refl)

/-! ## The whole -/

/-- The facility once the root is registered. -/
def oneRoot : Facility := .after [.register ⟨"/r"⟩ (.new "r" "1")]

end OnDemand.Service
