import Mathlib.Logic.Relation
import OnDemand.Proofs.Hydration.Step
import OnDemand.Proofs.Reconcile.Attempts
import OnDemand.Proofs.Service.Versions
import OnDemand.Service

/-!
# A service as a daemon

Populating a root, refreshing it and answering its requests come to moves of a daemon. What holds after every run of a
daemon holds in every state that a service reaches.
-/

namespace OnDemand

variable {objects : String → Option Bytes} {chunk : Nat} {d d' : Daemon} {b : Bridge Facility} {r : Request}

namespace Reconcile.Composes

variable {σ : Type} [CloudFacility σ] {R : Bridge σ → Bridge σ → Prop}

theorem reload (hR : Composes R) (store : ObjectStore) (remotePrefix : String) (root : Path) (current : Catalog)
    (b : Bridge σ) : R b (Service.reload store remotePrefix root current b).2 := by
  unfold Service.reload
  split
  · exact hR.refl b
  · rename_i newer h
    dsimp only
    split
    · exact hR.refl b
    · exact hR.run root (current.diff newer) b

theorem populate (hR : Composes R) (store : ObjectStore) (remotePrefix : String) (root : Path) (b : Bridge σ) :
    R b (Service.populate store remotePrefix root b).2 :=
  hR.run root _ b

end Reconcile.Composes

namespace Daemon

/-! ## Runs of moves -/

/-- Some run leads from `d` to `d'`. -/
def Reaches (objects : String → Option Bytes) (chunk : Nat) (d d' : Daemon) : Prop :=
  ∃ ms : List Move, (∀ m ∈ ms, m.Faithful objects) ∧ ms.foldl (next chunk) d = d'

theorem Reaches.refl (d : Daemon) : Reaches objects chunk d d := ⟨[], nofun, rfl⟩

theorem Reaches.single {m : Move} (hm : m.Faithful objects) : Reaches objects chunk d (d.next chunk m) :=
  ⟨[m], by simpa using hm, rfl⟩

theorem Reaches.trans {d'' : Daemon} (h : Reaches objects chunk d d') (h' : Reaches objects chunk d' d'') :
    Reaches objects chunk d d'' := by
  obtain ⟨ms, hms, rfl⟩ := h
  obtain ⟨ms', hms', rfl⟩ := h'
  refine ⟨ms ++ ms', fun m hm => ?_, List.foldl_append⟩
  exact (List.mem_append.1 hm).elim (hms m) (hms' m)

/-! ## Placing entries -/

variable (objects chunk) in
theorem composes_reaches : Reconcile.Composes fun b b' : Bridge Facility =>
    ∀ d : Daemon, d.bridge = b → Reaches objects chunk d { d with bridge := b' } where
  refl _ d hd := hd ▸ .refl d
  trans h h' d hd := (h d hd).trans (h' _ rfl)
  create parent name identity size mtime directory _ _ hd :=
    hd ▸ .single (m := .create parent name identity size mtime directory) trivial
  update path identity size mtime _ _ hd := hd ▸ .single (m := .update path identity size mtime) trivial

/-! ## Answering requests -/

theorem reaches_send {i : Nat} {plan : List Completion} (hi : d.servers[i]? = some (.sending r plan)) :
    ∃ servers, Reaches objects chunk d ⟨(Answer.send r plan d.bridge).2, d.raised, servers⟩ := by
  induction plan generalizing d with
  | nil => exact ⟨d.servers, .refl d⟩
  | cons c rest ih =>
    have hlt : i < d.servers.length := (List.getElem?_eq_some_iff.1 hi).1
    have hstep : Reaches objects chunk d (d.next chunk (.send i)) := .single (m := .send i) trivial
    simp only [next, sendFrom, hi] at hstep
    cases hb : d.bridge.deliver r.connection r.transfer c with
    | mk answer b =>
      rw [hb] at hstep
      cases answer with
      | ok u =>
        obtain ⟨servers, hrest⟩ :=
          ih (d := { d with bridge := b, servers := d.servers.set i (.sending r rest) }) (by simp [hlt])
        refine ⟨servers, hstep.trans ?_⟩
        simpa [Answer.send, hb] using hrest
      | error e =>
        refine ⟨d.servers.set i (.sending r []), ?_⟩
        simpa [Answer.send, hb] using hstep

/-- What a request is answered with is what a store has, or a failure. -/
def Answers (objects : String → Option Bytes) (r : Request) (fetched : Fetched) : Prop :=
  fetched = .timedOut ∨ ∃ store : ObjectStore, store.Shows objects ∧ fetched = store.fetched r

theorem reaches_plan (chunk : Nat) {i : Nat} {fetched : Fetched} (hi : d.servers[i]? = some (.fetching r))
    (hf : Answers objects r fetched) :
    Reaches objects chunk d { d with servers := d.servers.set i (.sending r (Answer.plan chunk r fetched)) } := by
  rcases hf with rfl | ⟨store, hstore, rfl⟩
  · have hstep : Reaches objects chunk d (d.next chunk (.timeOut i)) := .single (m := .timeOut i) trivial
    simpa only [next, plan, hi] using hstep
  · have hstep : Reaches objects chunk d (d.next chunk (.fetch i store)) := .single (m := .fetch i store) hstore
    simpa only [next, plan, hi] using hstep

theorem reaches_serve (chunk : Nat) {fetched : Fetched} (hr : r ∈ d.raised) (hf : Answers objects r fetched) :
    ∃ servers, Reaches objects chunk d ⟨(Answer.serve chunk r fetched d.bridge).2, d.raised, servers⟩ := by
  obtain ⟨n, hn⟩ := List.getElem?_of_mem hr
  -- A new server, which stands last among the servers, does all of it without pause.
  have hserve : Reaches objects chunk d (d.next chunk (.serve n)) := .single (m := .serve n) trivial
  simp only [next, hn] at hserve
  have hplan := reaches_plan chunk (d := { d with servers := d.servers ++ [.fetching r] }) (i := d.servers.length)
    (by simp) hf
  have hget : ((d.servers ++ [Server.fetching r]).set d.servers.length (.sending r (Answer.plan chunk r fetched)))[
      d.servers.length]? = some (.sending r (Answer.plan chunk r fetched)) := by simp
  obtain ⟨servers, hsend⟩ := reaches_send (d := { d with servers := _ }) hget
  rw [← Answer.run_bridge] at hsend
  exact ⟨servers, (hserve.trans hplan).trans hsend⟩

theorem reaches_refuse (hr : r ∈ d.raised) : Reaches objects chunk d { d with bridge := (Answer.refuse r d.bridge).2 } := by
  obtain ⟨n, hn⟩ := List.getElem?_of_mem hr
  have hrefuse : Reaches objects chunk d (d.next chunk (.refuse n)) := .single (m := .refuse n) trivial
  simpa only [next, hn] using hrefuse

/-! ## Channel and pool -/

/-- The daemon has the bridge of `h`, and the requests in its queue and its jobs were raised. -/
structure Mirrors (chunk : Nat) (h : Hydration Facility) (d : Daemon) : Prop where
  bridge : d.bridge = h.bridge
  chunk : h.pool.config.chunkSize = chunk
  queued : ∀ r ∈ h.channel.queue, r ∈ d.raised
  served : ∀ job ∈ h.pool.jobs, job.request ∈ d.raised

theorem Mirrors.work {h h' : Hydration Facility} {m : Hydration.Move} (hd : Mirrors chunk h d) (hstep : Hydration.Step h m h')
    (hfetch : ∀ info, m = .fetch info → .ofFetch info ∈ d.raised)
    (hfinish : ∀ n fetched, m = .finish n fetched →
      ∀ job ∈ h.pool.jobs, job.number = n → Answers objects job.request fetched) :
    ∃ d', Reaches objects chunk d d' ∧ Mirrors chunk h' d' := by
  cases hstep with
  | accepted info ha =>
    refine ⟨d, .refl d, hd.bridge, hd.chunk, fun r hr => ?_, hd.served⟩
    rcases List.mem_append.1 hr with hr | hr
    · exact hd.queued r hr
    · rw [List.mem_singleton.1 hr]
      exact hfetch info rfl
  | refused info ha =>
    refine ⟨_, reaches_refuse (hfetch info rfl), ?_, hd.chunk, hd.queued, hd.served⟩
    rw [hd.bridge]
  | received hstage hq =>
    refine ⟨d, .refl d, hd.bridge, hd.chunk, fun r hr => hd.queued r ?_, fun job hjob => ?_⟩
    · rw [hq]
      exact List.mem_cons_of_mem _ hr
    · rcases List.mem_append.1 hjob with hjob | hjob
      · exact hd.served job hjob
      · rw [List.mem_singleton.1 hjob]
        exact hd.queued _ (by rw [hq]; exact List.mem_cons_self)
  | drained hstage hq =>
    have hhead := hd.queued _ (by rw [hq]; exact List.mem_cons_self)
    refine ⟨_, reaches_refuse hhead, ?_, hd.chunk, fun r hr => hd.queued r ?_, hd.served⟩
    · rw [hd.bridge]
    · rw [hq]
      exact List.mem_cons_of_mem _ hr
  | @finished job fetched hjob =>
    obtain ⟨servers, hserve⟩ := reaches_serve chunk (hd.served job hjob) (hfinish _ _ rfl job hjob rfl)
    refine ⟨_, hserve, ?_, hd.chunk, hd.queued, fun job' hjob' => hd.served job' (List.mem_filter.1 hjob').1⟩
    rw [hd.bridge, hd.chunk]
  | _ => exact ⟨d, .refl d, hd.bridge, hd.chunk, hd.queued, hd.served⟩

end Daemon

/-! ## Joining a root -/

theorem Facility.Bare.of_eq {f g : Facility} (h : f.Bare) (htransfers : g.transfers = f.transfers)
    (hplaceholders : g.placeholders = f.placeholders) : g.Bare where
  transfers k := by rw [htransfers, h.transfers]
  content ρ := by
    rw [Facility.contentAt, hplaceholders]
    exact h.content ρ

theorem Facility.Bare.register {f : Facility} (h : f.Bare) (root : Path) (registration : Registration) :
    (Facility.register root registration f).2.Bare := by
  cases hr : Facility.register root registration f with
  | mk answer g =>
    cases answer with
    | error s => exact h.of_eq (by rw [Facility.attempt_error hr]; rfl) (by rw [Facility.attempt_error hr]; rfl)
    | ok a =>
      obtain ⟨-, rfl⟩ := Facility.register_ok.1 hr
      exact h.of_eq rfl rfl

theorem Facility.Bare.connect {f : Facility} (h : f.Bare) (root : Path) (handler : Handler) :
    (Facility.connect root handler f).2.Bare := by
  cases hc : Facility.connect root handler f with
  | mk answer g =>
    cases answer with
    | error s => exact h.of_eq (by rw [Facility.attempt_error hc]; rfl) (by rw [Facility.attempt_error hc]; rfl)
    | ok a =>
      obtain ⟨-, -, -, -, rfl⟩ := Facility.connect_ok.1 hc
      exact h.of_eq rfl rfl

namespace Service

open Daemon (Reaches Mirrors Answers)

variable {v v' : Service Facility}

/-- What joining a root can come to. -/
inductive Joining (c : SyncRootSection) (files : FileTree) (handler : Handler) (b : Bridge Facility) :
    Except ServiceError OpenConnection → Bridge Facility → Prop where
  | unregistered {e : RegistrationError} {b' : Bridge Facility}
      (hregister : Bridge.register files c.path c.displayName c.providerVersion b = (.error e, b')) :
      Joining c files handler b (.error (.registering e)) b'
  | refused {e : ConnectionError} {b₀ b' : Bridge Facility}
      (hregister : Bridge.register files c.path c.displayName c.providerVersion b = (.ok (), b₀))
      (haccept : Bridge.accept c.path handler b₀ = (.error e, b')) :
      Joining c files handler b (.error (.connecting e)) b'
  | joined {key : ConnectionKey} {b₀ b₁ : Bridge Facility}
      (hregister : Bridge.register files c.path c.displayName c.providerVersion b = (.ok (), b₀))
      (haccept : Bridge.accept c.path handler b₀ = (.ok key, b₁)) :
      Joining c files handler b (.ok ⟨key, c.path⟩) (b₁.record key c.path)

theorem joining_of_join {c : SyncRootSection} {files : FileTree} {handler : Handler}
    {answer : Except ServiceError OpenConnection} {b b' : Bridge Facility} (hjoin : join c files handler b = (answer, b')) :
    Joining c files handler b answer b' := by
  unfold join at hjoin
  cases hregister : Bridge.register files c.path c.displayName c.providerVersion b with
  | mk registered b₀ =>
    rw [hregister] at hjoin
    cases registered with
    | error e =>
      obtain ⟨rfl, rfl⟩ := Prod.mk.inj hjoin
      exact .unregistered hregister
    | ok u =>
      cases haccept : Bridge.accept c.path handler b₀ with
      | mk accepted b₁ =>
        simp only [Bridge.connect, haccept] at hjoin
        cases accepted with
        | error e =>
          obtain ⟨rfl, rfl⟩ := Prod.mk.inj hjoin
          exact .refused hregister haccept
        | ok key =>
          obtain ⟨rfl, rfl⟩ := Prod.mk.inj hjoin
          exact .joined hregister haccept

theorem register_facility {files : FileTree} {root : Path} {name version : String}
    {answer : Except RegistrationError Unit} {b b' : Bridge Facility}
    (hregister : Bridge.register files root name version b = (answer, b')) :
    b'.facility = b.facility ∨ b'.facility = b.facility.next (.register root (.new name version)) := by
  have hb : b' = (Bridge.register files root name version b).2 := congrArg Prod.snd hregister.symm
  rw [hb, Bridge.register]
  split
  · exact .inl rfl
  · exact .inr rfl

theorem accept_facility {root : Path} {handler : Handler} {answer : Except ConnectionError ConnectionKey}
    {b b' : Bridge Facility} (haccept : Bridge.accept root handler b = (answer, b')) :
    b'.facility = b.facility.next (.connect root handler) :=
  congrArg (·.2.facility) haccept.symm

theorem bare_join (c : SyncRootSection) (files : FileTree) (handler : Handler) (h : b.facility.Bare) :
    (join c files handler b).2.facility.Bare := by
  have hregistered {answer : Except RegistrationError Unit} {b₀ : Bridge Facility}
      (hr : Bridge.register files c.path c.displayName c.providerVersion b = (answer, b₀)) : b₀.facility.Bare := by
    rcases register_facility hr with hsame | hnext
    · exact hsame ▸ h
    · exact hnext ▸ h.register c.path (.new c.displayName c.providerVersion)
  have haccepted {answer : Except ConnectionError ConnectionKey} {b₀ b₁ : Bridge Facility} (h₀ : b₀.facility.Bare)
      (ha : Bridge.accept c.path handler b₀ = (answer, b₁)) : b₁.facility.Bare :=
    accept_facility ha ▸ h₀.connect c.path handler
  cases hjoin : join c files handler b with
  | mk answer b' =>
    cases joining_of_join hjoin with
    | unregistered hr => exact hregistered hr
    | refused hr ha => exact haccepted (hregistered hr) ha
    | joined hr ha =>
      have hbare := haccepted (hregistered hr) ha
      exact hbare

/-! ## Services -/

/-- One thing that happens while a service runs. A read calls back into the channel; what a job answers with is what a
store that shows `objects` has. -/
inductive Step (objects : String → Option Bytes) (v : Service Facility) : Service Facility → Prop where
  | read {path : Path} {offset length : Nat} {outcome : ReadStart} {f : Facility}
      (h : v.hydration.bridge.facility.startRead path offset length = (outcome, f))
      (hquiet : ∀ reader fetch, outcome ≠ .opened reader fetch) :
      Step objects v { v with hydration.bridge.facility := f }
  | ask {path : Path} {offset length : Nat} {reader : Reader} {fetch : Raised FetchInfo} {f : Facility}
      {h' : Hydration Facility}
      (h : v.hydration.bridge.facility.startRead path offset length = (.opened reader fetch, f))
      (hm : { v.hydration with bridge.facility := f }.move? (.fetch fetch.info) = some h') :
      Step objects v { v with hydration := h' }
  | giveUp (reader : Reader) :
      Step objects v { v with hydration.bridge.facility := v.hydration.bridge.facility.next (.giveUp reader) }
  | markInUse (path : Path) (inUse : Bool) :
      Step objects v { v with hydration.bridge.facility := v.hydration.bridge.facility.markInUse path inUse }
  | rearrange (pick : Nat) :
      Step objects v { v with hydration.bridge.facility := v.hydration.bridge.facility.rearrange pick }
  | dehydrate (path : Path) :
      Step objects v { v with hydration.bridge := (Bridge.dehydrate path v.hydration.bridge).2 }
  | refresh (store : ObjectStore) : Step objects v (v.refresh store)
  | work {m : Hydration.Move} {h' : Hydration Facility} (hm : v.hydration.move? m = some h')
      (hfetch : ∀ info, m ≠ .fetch info)
      (hfinish : ∀ n fetched, m = .finish n fetched →
        ∀ job ∈ v.hydration.pool.jobs, job.number = n → Answers objects job.request fetched) :
      Step objects v { v with hydration := h' }

abbrev Steps (objects : String → Option Bytes) : Service Facility → Service Facility → Prop :=
  Relation.ReflTransGen (Step objects)

theorem mirrors_read {path : Path} {offset length : Nat} {outcome : ReadStart} {f : Facility}
    (hd : Mirrors chunk v.hydration d)
    (h : v.hydration.bridge.facility.startRead path offset length = (outcome, f)) :
    Mirrors chunk { v.hydration with bridge.facility := f } (d.next chunk (.read path offset length)) where
  bridge := by simp only [Daemon.next, hd.bridge, h]
  chunk := hd.chunk
  queued r hr := Daemon.raised_subset_read chunk path offset length d (hd.queued r hr)
  served job hjob := Daemon.raised_subset_read chunk path offset length d (hd.served job hjob)

theorem mirrors_facility {m : Daemon.Move} {b : Bridge Facility} (hd : Mirrors chunk v.hydration d)
    (hraised : (d.next chunk m).raised = d.raised) (hb : (d.next chunk m).bridge = b) :
    Mirrors chunk { v.hydration with bridge := b } (d.next chunk m) where
  bridge := hb
  chunk := hd.chunk
  queued r hr := by
    rw [hraised]
    exact hd.queued r hr
  served job hjob := by
    rw [hraised]
    exact hd.served job hjob

theorem Step.mirrors (h : Step objects v v') (hd : Mirrors chunk v.hydration d) :
    ∃ d', Reaches objects chunk d d' ∧ Mirrors chunk v'.hydration d' := by
  cases h with
  | @read path offset length outcome f h hquiet =>
    exact ⟨_, .single (m := .read path offset length) trivial, mirrors_read hd h⟩
  | @ask path offset length reader fetch f h' h hm =>
    have hread : Reaches objects chunk d (d.next chunk (.read path offset length)) :=
      .single (m := .read path offset length) trivial
    have hraised : .ofFetch fetch.info ∈ (d.next chunk (.read path offset length)).raised := by
      simp only [Daemon.next, hd.bridge, h, Daemon.raise, List.mem_append, List.mem_singleton, or_true]
    obtain ⟨d', hreaches, hd'⟩ := (mirrors_read hd h).work (Hydration.step_of_move? hm)
      (fun info he => by obtain rfl := Hydration.Move.fetch.inj he; exact hraised) (fun n fetched he => by cases he)
    exact ⟨d', hread.trans hreaches, hd'⟩
  | giveUp reader =>
    exact ⟨_, .single (m := .giveUp reader) trivial, mirrors_facility hd rfl (by simp only [Daemon.next, hd.bridge])⟩
  | markInUse path inUse =>
    exact ⟨_, .single (m := .markInUse path inUse) trivial, mirrors_facility hd rfl (by simp only [Daemon.next, hd.bridge])⟩
  | rearrange pick =>
    exact ⟨_, .single (m := .rearrange pick) trivial, mirrors_facility hd rfl (by simp only [Daemon.next, hd.bridge])⟩
  | dehydrate path =>
    exact ⟨_, .single (m := .dehydrate path) trivial, mirrors_facility hd rfl (by simp only [Daemon.next, hd.bridge])⟩
  | refresh store =>
    exact ⟨_, (Daemon.composes_reaches objects chunk).reload store v.config.storage.remotePrefix v.connection.root v.catalog
      v.hydration.bridge d hd.bridge, rfl, hd.chunk, hd.queued, hd.served⟩
  | work hm hfetch hfinish =>
    exact hd.work (Hydration.step_of_move? hm) (fun info he => absurd he (hfetch info)) hfinish

theorem mirrors_start (config : Config) (processors : Nat) (store : ObjectStore) (connection : OpenConnection)
    (b : Bridge Facility) :
    ∃ d, Reaches objects (config.pool processors).normalized.chunkSize (.start b) d ∧
      Mirrors (config.pool processors).normalized.chunkSize (start config processors store connection b).hydration d :=
  ⟨_, (Daemon.composes_reaches objects _).populate store config.storage.remotePrefix connection.root b (.start b) rfl, rfl,
    rfl, nofun, nofun⟩

/-- Whatever a service has reached, a run of a daemon from the same bridge has reached too. -/
theorem exists_run {config : Config} {processors : Nat} {store : ObjectStore} {connection : OpenConnection}
    (h : Steps objects (start config processors store connection b) v) :
    ∃ ms, (∀ m ∈ ms, Daemon.Move.Faithful objects m) ∧
      (Daemon.after (config.pool processors).normalized.chunkSize b ms).bridge = v.hydration.bridge := by
  have hmirrors : ∃ d, Reaches objects (config.pool processors).normalized.chunkSize (.start b) d ∧
      Mirrors (config.pool processors).normalized.chunkSize v.hydration d := by
    induction h with
    | refl => exact mirrors_start config processors store connection b
    | tail _ hstep ih =>
      obtain ⟨d, hreaches, hd⟩ := ih
      obtain ⟨d', hreaches', hd'⟩ := hstep.mirrors hd
      exact ⟨d', hreaches.trans hreaches', hd'⟩
  obtain ⟨d, ⟨ms, hms, rfl⟩, hd⟩ := hmirrors
  exact ⟨ms, hms, hd.bridge⟩

/-- Served from the objects of a store, a root that has been joined on an empty facility holds, whatever happens, versions
that have been asked for. -/
theorem content_dated {config : Config} {processors : Nat} {store : ObjectStore} {connection : OpenConnection}
    {files : FileTree} {handler : Handler} {ρ : Route} {data : Bytes}
    (hjoin : join config.syncRoot files handler (.ofFacility .empty) = (.ok connection, b))
    (h : Steps objects (start config processors store connection b) v)
    (hdata : v.hydration.bridge.facility.contentAt ρ = some data) :
    ∃ ms, (Daemon.after (config.pool processors).normalized.chunkSize b ms).bridge = v.hydration.bridge ∧
      Daemon.Dated objects (config.pool processors).normalized.chunkSize b ms ρ data := by
  have hbare : b.facility.Bare := by
    have hjoined := bare_join config.syncRoot files handler (b := .ofFacility .empty) ⟨fun _ => rfl, fun _ => rfl⟩
    rwa [hjoin] at hjoined
  obtain ⟨ms, hms, hbridge⟩ := exists_run h
  exact ⟨ms, hbridge, Daemon.dated_of_contentAt hbare hms (by rw [hbridge]; exact hdata)⟩

end Service

end OnDemand
