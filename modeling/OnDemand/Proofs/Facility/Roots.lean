import Mathlib.Data.List.Induction
import OnDemand.Proofs.Facility.Frame

/-!
# Roots and their connections

Whatever calls are made, and however they come out: connections have keys that were issued, a connected root is
registered, and no root is connected twice.
-/

namespace OnDemand.Facility

variable {f g : Facility} {m : Move} {root : Path} {key : ConnectionKey} {c : Connection}

theorem isConnected_iff :
    f.isConnected root = true ↔ ∃ key c, f.connections.get? key = some c ∧ c.root.route = root.route := by
  simp only [isConnected, List.any_eq_true, Table.mem_values, Path.same_iff]
  constructor
  · rintro ⟨c, ⟨key, hc⟩, hroute⟩
    exact ⟨key, c, hc, hroute⟩
  · rintro ⟨key, c, hc, hroute⟩
    exact ⟨c, ⟨key, hc⟩, hroute⟩

theorem route_ne_of_not_isConnected (hfree : f.isConnected root = false) (hc : f.connections.get? key = some c) :
    c.root.route ≠ root.route := fun hroute => by
  rw [isConnected_iff.2 ⟨key, c, hc, hroute⟩] at hfree
  cases hfree

/-- Every connection has a key that was issued and a root that is registered, and no root has two connections. -/
structure Anchored (f : Facility) : Prop where
  issued : ∀ {key c}, f.connections.get? key = some c → key.value ≤ f.lastConnection
  registered : ∀ {key c}, f.connections.get? key = some c → (f.registration? c.root).isSome = true
  single : ∀ {key c key' c'}, f.connections.get? key = some c → f.connections.get? key' = some c' →
    c.root.route = c'.root.route → key = key'

/-- Connections may go, and roots that have none. -/
theorem Anchored.mono (h : Anchored f) (hl : g.lastConnection = f.lastConnection)
    (hc : ∀ {key c}, g.connections.get? key = some c → f.connections.get? key = some c)
    (hr : ∀ {key c}, g.connections.get? key = some c → (f.registration? c.root).isSome = true →
      (g.registration? c.root).isSome = true) : Anchored g where
  issued hget := hl ▸ h.issued (hc hget)
  registered hget := hr hget (h.registered (hc hget))
  single hget hget' := h.single (hc hget) (hc hget')

theorem Anchored.connect {handler : Handler} (h : Anchored f) (hregistered : (f.registration? root).isSome = true)
    (hfree : f.isConnected root = false) (hr : g.registrations = f.registrations)
    (hc : g.connections = f.connections.insert ⟨f.lastConnection + 1⟩ ⟨root, handler⟩)
    (hl : g.lastConnection = f.lastConnection + 1) : Anchored g := by
  have hcases : ∀ {key c}, g.connections.get? key = some c →
      key = ⟨f.lastConnection + 1⟩ ∧ c = ⟨root, handler⟩ ∨ f.connections.get? key = some c := fun hget =>
    (Table.get?_insert_cases (hc ▸ hget)).imp_right And.right
  refine ⟨fun hget => ?_, fun hget => ?_, fun hget hget' hroute => ?_⟩
  · rw [hl]
    rcases hcases hget with ⟨rfl, -⟩ | hget
    · exact Int.le_refl _
    · exact Int.le_add_one (h.issued hget)
  · rw [registration?, hr]
    rcases hcases hget with ⟨-, rfl⟩ | hget
    · exact hregistered
    · exact h.registered hget
  · rcases hcases hget with ⟨rfl, rfl⟩ | hget <;> rcases hcases hget' with ⟨rfl, rfl⟩ | hget'
    · rfl
    · exact absurd hroute.symm (route_ne_of_not_isConnected hfree hget')
    · exact absurd hroute (route_ne_of_not_isConnected hfree hget)
    · exact h.single hget hget' hroute

theorem Anchored.next (h : Anchored f) (hchange : RootChange f m g) : Anchored g := by
  cases hchange with
  | kept hr hc hl =>
    refine h.mono hl (fun hget => hc ▸ hget) fun _ hregistered => ?_
    rwa [registration?, hr]
  | registered root registration hm hr hc hl =>
    refine h.mono hl (fun hget => hc ▸ hget) fun _ hregistered => ?_
    rw [registration?, hr, Table.get?_insert]
    split
    · rfl
    · exact hregistered
  | unregistered root hm hfree hr hc hl =>
    -- A root that is connected cannot be unregistered.
    refine h.mono hl (fun hget => hc ▸ hget) fun hget hregistered => ?_
    rw [hc] at hget
    rwa [registration?, hr, Table.get?_erase_of_ne (route_ne_of_not_isConnected hfree hget)]
  | connected root handler hm hregistered hfree hr hc hl => exact h.connect hregistered hfree hr hc hl
  | disconnected key hm hr hc hl =>
    refine h.mono hl (fun hget => ?_) fun _ hregistered => ?_
    · rw [hc] at hget
      exact (Table.get?_erase_eq_some.1 hget).2
    · rwa [registration?, hr]

theorem anchored_after (ms : List Move) : Anchored (after ms) := by
  induction ms using List.reverseRecOn with
  | nil => exact ⟨nofun, nofun, nofun⟩
  | append_singleton ms m ih =>
    rw [after_append_singleton]
    exact ih.next (frame_next _ m).roots

/-! ## Moves beside the roots -/

/-- The move is about files and transfers, or plans a refusal of something else than leaving a root. -/
def Move.isBeside : Move → Bool
  | .register _ _ | .unregister _ | .connect _ _ | .disconnect _ => false
  | .planFault op _ => op ≠ .disconnect ∧ op ≠ .unregister
  | _ => true

/-- `g` has the roots and the connections of `f`, and refuses to let go of them only if `f` does. -/
structure Stands (f g : Facility) : Prop where
  registrations : g.registrations = f.registrations
  connections : g.connections = f.connections
  lastConnection : g.lastConnection = f.lastConnection
  disconnect : f.faults .disconnect = none → g.faults .disconnect = none
  unregister : f.faults .unregister = none → g.faults .unregister = none

theorem Stands.refl (f : Facility) : Stands f f := ⟨rfl, rfl, rfl, id, id⟩

theorem Stands.trans {f' : Facility} (h : Stands f g) (h' : Stands g f') : Stands f f' where
  registrations := h'.registrations.trans h.registrations
  connections := h'.connections.trans h.connections
  lastConnection := h'.lastConnection.trans h.lastConnection
  disconnect hf := h'.disconnect (h.disconnect hf)
  unregister hf := h'.unregister (h.unregister hf)

theorem stands_next (f : Facility) (hm : m.isBeside = true) : Stands f (f.next m) := by
  have hframe := frame_next f m
  have hplan : ∀ op s, m = .planFault op s → op ≠ .disconnect ∧ op ≠ .unregister := by
    rintro op s rfl
    simpa [Move.isBeside] using hm
  have hdisconnect := hframe.clear .disconnect fun s he => (hplan _ s he).1 rfl
  have hunregister := hframe.clear .unregister fun s he => (hplan _ s he).2 rfl
  cases hframe.roots with
  | kept hr hc hl => exact ⟨hr, hc, hl, hdisconnect, hunregister⟩
  | registered _ _ he | unregistered _ he | connected _ _ he | disconnected _ he =>
    subst he
    cases hm

end OnDemand.Facility
