import OnDemand.Proofs.Facility.Run

/-!
# What the calls leave alone

Roots and connections change by four calls only, the log by transfer operations, and a refusal is met only if it was
planned. `frame_next` says so of every move. Creating and updating leave all but the placeholders and the plans alone.
-/

namespace OnDemand.Facility

variable {f g : Facility} {k : TransferKey} {m : Move}

/-- What the move `m` from `f` to `g` makes of the registered roots and the connections. -/
inductive RootChange (f : Facility) (m : Move) (g : Facility) : Prop where
  | kept (hr : g.registrations = f.registrations) (hc : g.connections = f.connections)
      (hl : g.lastConnection = f.lastConnection)
  | registered (root : Path) (registration : Registration) (hm : m = .register root registration)
      (hr : g.registrations =
        f.registrations.insert root.route ⟨((f.registration? root).map (·.path)).getD root, registration⟩)
      (hc : g.connections = f.connections) (hl : g.lastConnection = f.lastConnection)
  | unregistered (root : Path) (hm : m = .unregister root) (hfree : f.isConnected root = false)
      (hr : g.registrations = f.registrations.erase root.route) (hc : g.connections = f.connections)
      (hl : g.lastConnection = f.lastConnection)
  | connected (root : Path) (handler : Handler) (hm : m = .connect root handler)
      (hregistered : (f.registration? root).isSome = true) (hfree : f.isConnected root = false)
      (hr : g.registrations = f.registrations)
      (hc : g.connections = f.connections.insert ⟨f.lastConnection + 1⟩ ⟨root, handler⟩)
      (hl : g.lastConnection = f.lastConnection + 1)
  | disconnected (key : ConnectionKey) (hm : m = .disconnect key) (hr : g.registrations = f.registrations)
      (hc : g.connections = f.connections.erase key) (hl : g.lastConnection = f.lastConnection)

/-- What the move `m` from `f` to `g` leaves of the log, the planned refusals, the roots and the connections. -/
structure Frame (f : Facility) (m : Move) (g : Facility) : Prop where
  log : (∀ op, m ≠ .execute op) → g.log = f.log
  clear : ∀ op, (∀ s, m ≠ .planFault op s) → f.faults op = none → g.faults op = none
  roots : RootChange f m g

theorem Frame.of_eq (hlog : g.log = f.log) (hfaults : g.faults = f.faults) (hroots : RootChange f m g) : Frame f m g :=
  ⟨fun _ => hlog, fun op _ h => by rw [hfaults, h], hroots⟩

theorem Frame.lastConnection (h : Frame f m g) : f.lastConnection ≤ g.lastConnection := by
  cases h.roots with
  | connected root handler hm hregistered hfree hr hc hl => omega
  | kept hr hc hl => omega
  | registered root registration hm hr hc hl => omega
  | unregistered root hm hfree hr hc hl => omega
  | disconnected key hm hr hc hl => omega

theorem dropFault_clear {o op : Operation} (h : f.faults op = none) : (f.dropFault o).faults op = none := by
  simp [dropFault, h]

theorem frame_dropFault (op : Operation) : Frame f m (f.dropFault op) :=
  ⟨fun _ => rfl, fun _ _ => dropFault_clear, .kept rfl rfl rfl⟩

theorem frame_attempt {α : Type} {op : Operation} {body : Facility → Except Status (α × Facility)}
    (h : ∀ a g, attempt op body f = (.ok a, g) → Frame f m g) : Frame f m (attempt op body f).2 := by
  rcases attempt_cases op body f with ⟨s, he⟩ | ⟨a, g, -, -, he⟩
  · rw [he]
    exact frame_dropFault op
  · rw [he]
    exact h a g he

@[simp] theorem store_log {t : Transfer} : (f.store k t).log = f.log := by
  unfold store
  split <;> rfl

@[simp] theorem store_registrations {t : Transfer} : (f.store k t).registrations = f.registrations := by
  unfold store
  split <;> rfl

@[simp] theorem store_lastConnection {t : Transfer} : (f.store k t).lastConnection = f.lastConnection := by
  unfold store
  split <;> rfl

theorem frame_execute (op : TransferOperation) : Frame f (.execute op) (f.next (.execute op)) := by
  have hlog : (∀ o, Move.execute op ≠ .execute o) → (f.next (.execute op)).log = f.log := fun h => absurd rfl (h op)
  rcases execute_cases op f with ⟨s, h⟩ | ⟨t, -, -, ⟨-, h⟩ | ⟨data, -, h⟩⟩
  · refine ⟨hlog, fun o _ hclear => ?_, .kept ?_ ?_ ?_⟩ <;> simp [next, logged, dropFault, *]
  · refine ⟨hlog, fun o _ hclear => ?_, .kept ?_ ?_ ?_⟩ <;> simp [next, logged, *]
  · refine ⟨hlog, fun o _ hclear => ?_, .kept ?_ ?_ ?_⟩ <;> simp [next, logged, *]

theorem frame_next (f : Facility) (m : Move) : Frame f m (f.next m) := by
  cases m with
  | register root registration =>
    refine frame_attempt fun a g h => ?_
    obtain ⟨-, rfl⟩ := register_ok.1 h
    exact .of_eq rfl rfl (.registered root registration rfl rfl rfl rfl)
  | unregister root =>
    refine frame_attempt fun a g h => ?_
    obtain ⟨-, -, hfree, rfl⟩ := unregister_ok.1 h
    exact .of_eq rfl rfl (.unregistered root rfl hfree rfl rfl rfl)
  | connect root handler =>
    refine frame_attempt fun key g h => ?_
    obtain ⟨-, hregistered, hfree, -, rfl⟩ := connect_ok.1 h
    exact .of_eq rfl rfl (.connected root handler rfl hregistered hfree rfl rfl rfl)
  | disconnect key =>
    refine frame_attempt fun a g h => ?_
    obtain ⟨-, -, rfl⟩ := disconnect_ok.1 h
    exact .of_eq rfl rfl (.disconnected key rfl rfl rfl rfl)
  | create parent new =>
    refine frame_attempt fun a g h => ?_
    obtain ⟨-, -, -, -, rfl⟩ := create_ok.1 h
    exact .of_eq rfl rfl (.kept rfl rfl rfl)
  | update path metadata identity =>
    refine frame_attempt fun a g h => ?_
    obtain ⟨-, p, -, rfl⟩ := update_ok.1 h
    exact .of_eq rfl rfl (.kept rfl rfl rfl)
  | dehydrate path =>
    refine frame_attempt fun a g h => ?_
    obtain ⟨-, p, -, -, -, rfl⟩ := dehydrate_ok.1 h
    exact .of_eq rfl rfl (.kept rfl rfl rfl)
  | execute op => exact frame_execute op
  | planFault op status =>
    refine ⟨fun _ => rfl, fun o h hclear => ?_, .kept rfl rfl rfl⟩
    have hne : o ≠ op := fun he => h status (he ▸ rfl)
    simp [next, planFault, hne, hclear]
  | markInUse path inUse => exact .of_eq rfl rfl (.kept rfl rfl rfl)
  | fill path data =>
    cases h : f.putContent path data with
    | error s =>
      simp only [next, h]
      exact .of_eq rfl rfl (.kept rfl rfl rfl)
    | ok g =>
      obtain ⟨p, -, -, rfl⟩ := putContent_ok.1 h
      simp only [next, h]
      exact .of_eq rfl rfl (.kept rfl rfl rfl)
  | begin path =>
    cases h : f.beginTransfer path with
    | error s =>
      simp only [next, h]
      exact .of_eq rfl rfl (.kept rfl rfl rfl)
    | ok r =>
      obtain ⟨begun, g⟩ := r
      obtain ⟨p, e, -, -, -, -, rfl⟩ := beginTransfer_ok.1 h
      simp only [next, h]
      exact .of_eq rfl rfl (.kept rfl rfl rfl)
  | read path offset length =>
    rcases startRead_cases path offset length f with ⟨h, -⟩ | ⟨p, e, h⟩
    · simp only [next, h]
      exact .of_eq rfl rfl (.kept rfl rfl rfl)
    · simp only [next, startRead_opens h]
      exact .of_eq rfl rfl (.kept rfl rfl rfl)
  | giveUp reader =>
    simp only [next]
    split <;> exact .of_eq rfl rfl (.kept rfl rfl rfl)
  | rearrange pick => exact .of_eq rfl rfl (.kept rfl rfl rfl)

/-! ## Calls on placeholders -/

/-- `g` differs from `f` in its placeholders and in the refusals that are planned, at most. -/
def AlikeBeside (f g : Facility) : Prop := ∃ placeholders faults, g = { f with placeholders, faults }

theorem AlikeBeside.refl (f : Facility) : f.AlikeBeside f := ⟨_, _, rfl⟩

theorem AlikeBeside.trans {h : Facility} (hfg : f.AlikeBeside g) (hgh : g.AlikeBeside h) : f.AlikeBeside h := by
  obtain ⟨_, _, rfl⟩ := hfg
  obtain ⟨_, _, rfl⟩ := hgh
  exact ⟨_, _, rfl⟩

theorem alikeBeside_create (parent : Path) (new : NewPlaceholder) (f : Facility) : f.AlikeBeside (create parent new f).2 := by
  cases h : create parent new f with
  | mk answer g =>
    cases answer with
    | error status => exact ⟨_, _, attempt_error h⟩
    | ok u =>
      obtain ⟨-, -, -, -, rfl⟩ := create_ok.1 h
      exact ⟨_, _, rfl⟩

theorem alikeBeside_update (path : Path) (metadata : Metadata) (identity : FileIdentity) (f : Facility) :
    f.AlikeBeside (update path metadata identity f).2 := by
  cases h : update path metadata identity f with
  | mk answer g =>
    cases answer with
    | error status => exact ⟨_, _, attempt_error h⟩
    | ok u =>
      obtain ⟨-, p, -, rfl⟩ := update_ok.1 h
      exact ⟨_, _, rfl⟩

end OnDemand.Facility
