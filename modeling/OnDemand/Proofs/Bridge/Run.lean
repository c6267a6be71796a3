import OnDemand.Bridge.Connection
import OnDemand.Bridge.Placeholder
import OnDemand.Bridge.Registration
import OnDemand.Proofs.Bridge.Response

/-!
# Runs through a bridge

A move is one operation of the bridge, or something that happens at its facility without it. A connection is held from
the move that opens it to the move that closes it; a connection that is no longer held cannot be closed again.
-/

namespace OnDemand

structure Usage (σ : Type) where
  bridge : Bridge σ
  held : List OpenConnection

theorem Bridge.live_ask {σ α ε : Type} (call : Call σ α) (sort : Status → ε) (b : Bridge σ) :
    (ask call sort b).2.live = b.live :=
  rfl

namespace Usage

inductive Move (ε : Type) where
  | register (files : FileTree) (root : Path) (name version : String)
  | unregister (root : Path)
  | connect (root : Path) (handler : Handler)
  /-- The connection at this place among those held is disconnected or dropped. -/
  | close (place : Nat)
  | create (parent : Path) (name : String) (identity : FileIdentity) (size : Nat) (mtime : Int) (directory : Bool)
  | update (path : Path) (identity : FileIdentity) (size : Nat) (mtime : Int)
  | dehydrate (path : Path)
  | deliver (connection : ConnectionKey) (transfer : TransferKey) (c : Completion)
  /-- Something that happens at the facility without the bridge. -/
  | elsewhere (event : ε)

variable {σ ε : Type} [CloudFacility σ] (react : ε → σ → σ)

def start (facility : σ) : Usage σ := ⟨.ofFacility facility, []⟩

/-- The state after a move, where the facility makes `react e` of itself when `e` happens. -/
def next (u : Usage σ) : Move ε → Usage σ
  | .register files root name version => { u with bridge := (Bridge.register files root name version u.bridge).2 }
  | .unregister root => { u with bridge := (Bridge.unregister root u.bridge).2 }
  | .connect root handler =>
    match Bridge.connect root handler u.bridge with
    | (.ok c, b) => ⟨b, u.held ++ [c]⟩
    | (.error _, b) => { u with bridge := b }
  | .close place =>
    match u.held[place]? with
    | some c => ⟨u.bridge.disconnect c, u.held.eraseIdx place⟩
    | none => u
  | .create parent name identity size mtime directory =>
    { u with bridge := (Bridge.create parent name identity size mtime directory u.bridge).2 }
  | .update path identity size mtime => { u with bridge := (Bridge.update path identity size mtime u.bridge).2 }
  | .dehydrate path => { u with bridge := (Bridge.dehydrate path u.bridge).2 }
  | .deliver connection transfer c => { u with bridge := (u.bridge.deliver connection transfer c).2 }
  | .elsewhere e => { u with bridge := { u.bridge with facility := react e u.bridge.facility } }

def after (facility : σ) (ms : List (Move ε)) : Usage σ := ms.foldl (next react) (start facility)

/-- The connection that a move opens: the facility has issued its key. -/
def opens? (u : Usage σ) : Move ε → Option OpenConnection
  | .connect root handler => (Bridge.connect root handler u.bridge).1.toOption
  | _ => none

def closes? (u : Usage σ) : Move ε → Option OpenConnection
  | .close place => u.held[place]?
  | _ => none

/-- The connections that the moves `ms` from `u` on open, in this order. -/
def opened (u : Usage σ) : List (Move ε) → List OpenConnection
  | [] => []
  | m :: ms => (u.opens? m).toList ++ opened (u.next react m) ms

variable {react} {u : Usage σ} {m : Move ε} {ms : List (Move ε)} {facility : σ} {key : ConnectionKey}

@[simp] theorem after_append_singleton : after react facility (ms ++ [m]) = (after react facility ms).next react m := by
  simp [after]

theorem opened_append_singleton :
    u.opened react (ms ++ [m]) = u.opened react ms ++ ((ms.foldl (next react) u).opens? m).toList := by
  induction ms generalizing u with
  | nil => simp [opened]
  | cons n ms ih => simp [opened, ih]

/-! ## What one move does to the connections -/

/-- What the move `m` from `u` to `v` makes of the live table and of the connections held. -/
inductive Linkage (u : Usage σ) (m : Move ε) (v : Usage σ) : Prop where
  | kept (ho : u.opens? m = none) (hc : u.closes? m = none) (hlive : v.bridge.live = u.bridge.live)
      (hheld : v.held = u.held)
  | opened (c : OpenConnection) (ho : u.opens? m = some c) (hc : u.closes? m = none)
      (hlive : v.bridge.live = u.bridge.live.record c.key c.root) (hheld : v.held = u.held ++ [c])
  | closed (c : OpenConnection) (ho : u.opens? m = none) (hc : u.closes? m = some c) (hmem : c ∈ u.held)
      (hlive : v.bridge.live = u.bridge.live.retire c.key) (hheld : v.held ⊆ u.held)

theorem linkage_connect (u : Usage σ) (root : Path) (handler : Handler) :
    Linkage u (.connect root handler : Move ε) (u.next react (.connect root handler)) := by
  cases h : Bridge.accept root handler u.bridge with
  | mk answer b =>
    have hlive : b.live = u.bridge.live := congrArg (·.2.live) h.symm
    cases answer with
    | error e =>
      refine .kept ?_ rfl ?_ ?_ <;> simp [next, opens?, Bridge.connect, h, Except.toOption, hlive]
    | ok key =>
      refine .opened ⟨key, root⟩ ?_ rfl ?_ ?_ <;>
        simp [next, opens?, Bridge.connect, Bridge.record, h, Except.toOption, hlive]

theorem linkage_close (u : Usage σ) (place : Nat) :
    Linkage u (.close place : Move ε) (u.next react (.close place)) := by
  cases hc : u.held[place]? with
  | none => exact .kept rfl hc (by simp [next, hc]) (by simp [next, hc])
  | some c =>
    refine .closed c rfl hc (List.mem_of_getElem? hc) (by simp [next, hc, Bridge.disconnect, Bridge.live_ask]) ?_
    simp only [next, hc]
    exact List.eraseIdx_subset

theorem linkage (react : ε → σ → σ) (u : Usage σ) (m : Move ε) : Linkage u m (u.next react m) := by
  cases m with
  | connect root handler => exact linkage_connect u root handler
  | close place => exact linkage_close u place
  | register files root name version =>
    refine .kept rfl rfl ?_ rfl
    simp only [next, Bridge.register]
    split <;> rfl
  | create parent name identity size mtime directory =>
    refine .kept rfl rfl ?_ rfl
    simp only [next, Bridge.create]
    split <;> rfl
  | update path identity size mtime =>
    refine .kept rfl rfl ?_ rfl
    simp only [next, Bridge.update]
    split <;> rfl
  | deliver connection transfer c => exact .kept rfl rfl Bridge.live_deliver rfl
  | unregister root => exact .kept rfl rfl rfl rfl
  | dehydrate path => exact .kept rfl rfl rfl rfl
  | elsewhere e => exact .kept rfl rfl rfl rfl

end Usage

end OnDemand
