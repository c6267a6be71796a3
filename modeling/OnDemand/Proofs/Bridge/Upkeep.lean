import OnDemand.Proofs.Bridge.InMemory
import OnDemand.Proofs.Facility.Calm

/-!
# Updating and evicting

An update sets identity, size and two of the times, an eviction takes the content away. Of each field a placeholder has
the latest value that a call which succeeded has set, and the one it was created with if there was none.
-/

namespace OnDemand

namespace Placeholder

/-- What happens to a placeholder that stays where it is. -/
inductive Effect where
  | updated (identity : FileIdentity) (size : Nat) (mtime : Int)
  | evicted
  | filled (data : Bytes)
  | marked (inUse : Bool)
deriving DecidableEq, Repr

namespace Effect

def identity? : Effect → Option FileIdentity
  | updated identity _ _ => some identity
  | _ => none

def size? : Effect → Option Int
  | updated _ size _ => some size
  | _ => none

/-- The file time that is set; to the facility, zero means none. -/
def time? : Effect → Option Int
  | updated _ _ mtime => if Filetime.ofUnix mtime = 0 then none else some (Filetime.ofUnix mtime)
  | _ => none

def inSync? : Effect → Option Bool
  | updated _ _ _ => some true
  | _ => none

def content? : Effect → Option (Option Bytes)
  | evicted => some none
  | filled data => some (some data)
  | _ => none

def inUse? : Effect → Option Bool
  | marked inUse => some inUse
  | _ => none

/-- The last value that `es` set, or `initial` if they set none. -/
def latest {α : Type} (set? : Effect → Option α) (es : List Effect) (initial : α) : α :=
  (es.filterMap set?).getLastD initial

theorem latest_append {α : Type} (set? : Effect → Option α) (es es' : List Effect) (initial : α) :
    latest set? (es ++ es') initial = latest set? es' (latest set? es initial) := by
  rw [latest, List.filterMap_append, List.getLastD_eq_getLast?, List.getLast?_append, latest, latest,
    List.getLastD_eq_getLast?, List.getLastD_eq_getLast?]
  cases (es'.filterMap set?).getLast? <;> rfl

end Effect

open Effect

/-- The placeholder after `es`, in this order. -/
def tended (es : List Effect) (p : Placeholder) : Placeholder :=
  { p with
    identity := latest identity? es p.identity
    metadata := { p.metadata with
      size := latest size? es p.metadata.size
      written := latest time? es p.metadata.written
      changed := latest time? es p.metadata.changed }
    inSync := latest inSync? es p.inSync
    content := latest content? es p.content
    inUse := latest inUse? es p.inUse }

theorem tended_nil : tended [] = id := rfl

theorem tended_append (es es' : List Effect) (p : Placeholder) : p.tended (es ++ es') = (p.tended es).tended es' := by
  simp only [tended, latest_append]

theorem tended_updated (p : Placeholder) (identity : FileIdentity) (size : Nat) (mtime : Int) :
    p.tended [.updated identity size mtime] = p.update (.amendment size mtime) identity := by
  -- File time zero is the one time that cannot be set.
  by_cases htime : Filetime.ofUnix mtime = 0 <;>
    simp [tended, update, Metadata.amend, Metadata.amendment, latest, identity?, size?, time?, inSync?, content?, inUse?, htime]

end Placeholder

open Placeholder (Effect)

/-! ## One call -/

namespace Bridge

variable {b : Bridge Facility} {path : Path} {op : Operation} {change : Placeholder → Placeholder}

/-- What a call comes to that is to make `change` of the placeholder at `path`: it does that and nothing else, or fails and
leaves everything as it was, or fails and uses up the refusal that was planned for it. -/
inductive Outcome (path : Path) (op : Operation) (change : Placeholder → Placeholder) (b : Bridge Facility) :
    Except PlaceholderError Unit → Bridge Facility → Prop where
  | done (p : Placeholder) (hp : b.facility.placeholder? path = some p) :
      Outcome path op change b (.ok ()) (b.put path (change p))
  | failed (failure : PlaceholderError) : Outcome path op change b (.error failure) b
  | faulted (failure : PlaceholderError) (status : Status) (hplanned : b.facility.faults op = some status) :
      Outcome path op change b (.error failure) { b with facility := b.facility.dropFault op }

theorem ask_isOk_iff {call : Call Facility Unit} {sort : Status → PlaceholderError} :
    (ask call sort b).1.isOk = true ↔ ∃ g, call b.facility = (.ok (), g) := by
  have hask : (ask call sort b).1 = (call b.facility).1.mapError sort := rfl
  rw [hask]
  cases hcall : call b.facility with
  | mk outcome g =>
    cases outcome with
    | ok u => exact iff_of_true rfl ⟨g, rfl⟩
    | error s => exact iff_of_false nofun nofun

theorem outcome_ask {call : Call Facility Unit} {sort : Status → PlaceholderError}
    (hok : ∀ g, call b.facility = (.ok (), g) →
      ∃ p, b.facility.placeholder? path = some p ∧ g = (b.put path (change p)).facility)
    (herror : ∀ s g, call b.facility = (.error s, g) → g = b.facility.dropFault op) :
    Outcome path op change b (ask call sort b).1 (ask call sort b).2 := by
  have hask : ask call sort b = ((call b.facility).1.mapError sort, { b with facility := (call b.facility).2 }) := rfl
  rw [hask]
  cases hcall : call b.facility with
  | mk outcome g =>
    cases outcome with
    | ok u =>
      obtain ⟨p, hp, rfl⟩ := hok g hcall
      exact .done p hp
    | error s =>
      obtain rfl := herror s g hcall
      cases hfaults : b.facility.faults op with
      | none =>
        rw [Facility.dropFault_eq_self hfaults]
        exact .failed _
      | some status => exact .faulted _ status hfaults

theorem outcome_update (path : Path) (identity : FileIdentity) (size : Nat) (mtime : Int) (b : Bridge Facility) :
    Outcome path .update (Placeholder.tended [.updated identity size mtime]) b
      (update path identity size mtime b).1 (update path identity size mtime b).2 := by
  by_cases hfits : fitsFacility identity size = true
  · rw [update, if_pos hfits]
    refine outcome_ask (fun g hcall => ?_) fun s g hcall => Facility.attempt_error hcall
    obtain ⟨-, p, hp, rfl⟩ := Facility.update_ok.1 hcall
    exact ⟨p, hp, by rw [Placeholder.tended_updated]; rfl⟩
  · rw [update_refused hfits]
    exact .failed _

theorem outcome_dehydrate (path : Path) (b : Bridge Facility) :
    Outcome path .dehydrate (fun p => { p with content := none }) b (dehydrate path b).1 (dehydrate path b).2 := by
  refine outcome_ask (fun g hcall => ?_) fun s g hcall => Facility.attempt_error hcall
  obtain ⟨-, p, hp, -, -, rfl⟩ := Facility.dehydrate_ok.1 hcall
  exact ⟨p, hp, rfl⟩

theorem update_isOk_iff {identity : FileIdentity} {size : Nat} {mtime : Int} :
    (update path identity size mtime b).1.isOk = true ↔
      identity.length ≤ FileIdentity.maxLength ∧ size ≤ Word.maxSigned ∧ b.facility.faults .update = none ∧
        ∃ p, b.facility.placeholder? path = some p := by
  rw [← and_assoc, ← fitsFacility_iff]
  by_cases hfits : fitsFacility identity size = true
  · rw [update, if_pos hfits, ask_isOk_iff, and_iff_right hfits]
    constructor
    · rintro ⟨g, hcall⟩
      obtain ⟨hclear, p, hp, -⟩ := Facility.update_ok.1 hcall
      exact ⟨hclear, p, hp⟩
    · rintro ⟨hclear, p, hp⟩
      exact ⟨_, Facility.update_ok.2 ⟨hclear, p, hp, rfl⟩⟩
  · rw [update_refused hfits]
    exact iff_of_false Bool.false_ne_true fun h => hfits h.1

theorem dehydrate_isOk_iff :
    (dehydrate path b).1.isOk = true ↔
      b.facility.faults .dehydrate = none ∧
        ∃ p, b.facility.placeholder? path = some p ∧ p.isDirectory = false ∧ p.inUse = false := by
  rw [dehydrate, ask_isOk_iff]
  constructor
  · rintro ⟨g, hcall⟩
    obtain ⟨hclear, p, hp, hfile, hfree, -⟩ := Facility.dehydrate_ok.1 hcall
    exact ⟨hclear, p, hp, hfile, hfree⟩
  · rintro ⟨hclear, p, hp, hfile, hfree⟩
    exact ⟨_, Facility.dehydrate_ok.2 ⟨hclear, p, hp, hfile, hfree, rfl⟩⟩

theorem placeholder?_create {parent : Path} {name : String} {identity : FileIdentity} {size : Nat} {mtime : Int}
    {directory : Bool} (h : (create parent name identity size mtime directory b).1.isOk = true) :
    (create parent name identity size mtime directory b).2.facility.placeholder? (parent.join name) =
      some (.create (parent.join name) (.of name identity size mtime directory)) := by
  by_cases hadmitted : (isValidName name && fitsFacility identity size) = true
  · rw [create, if_pos hadmitted] at h ⊢
    obtain ⟨g, hcall⟩ := ask_isOk_iff.1 h
    obtain ⟨-, -, -, -, rfl⟩ := Facility.create_ok.1 hcall
    have hplaceholder := congrArg (fun r => r.2.placeholder? (parent.join name)) hcall
    exact hplaceholder.trans Table.get?_insert_self
  · rw [create, if_neg hadmitted] at h
    cases h

end Bridge

/-! ## Runs -/

namespace Usage

variable {u v w : Usage Facility} {m : Move Facility.Move} {ms : List (Move Facility.Move)} {path : Path} {ρ : Route}

/-- A placeholder is updated or evicted through the bridge, or an application opens, closes or fills a file, or a refusal
is planned. -/
def isUpkeep : Move Facility.Move → Bool
  | .update .. | .dehydrate _ | .elsewhere (.planFault ..) | .elsewhere (.markInUse ..) | .elsewhere (.fill ..) => true
  | _ => false

/-- What the move `m` of an upkeep does to the placeholder at `ρ`: nothing if it fails, or is about another place. -/
def effect (ρ : Route) (u : Usage Facility) : Move Facility.Move → List Effect
  | .update path identity size mtime =>
    if path.route = ρ ∧ (Bridge.update path identity size mtime u.bridge).1.isOk = true then [.updated identity size mtime]
    else []
  | .dehydrate path => if path.route = ρ ∧ (Bridge.dehydrate path u.bridge).1.isOk = true then [.evicted] else []
  | .elsewhere (.fill path data) =>
    if path.route = ρ ∧ (u.bridge.facility.putContent path data).isOk = true then [.filled data] else []
  | .elsewhere (.markInUse path inUse) => if path.route = ρ then [.marked inUse] else []
  | _ => []

/-- What an upkeep does to the placeholder at `ρ`, in this order. -/
def effects (ρ : Route) (u : Usage Facility) : List (Move Facility.Move) → List Effect
  | [] => []
  | m :: ms => u.effect ρ m ++ effects ρ (u.next react m) ms

/-- From `u` to `v` each placeholder has gone through the effects at its place, and nothing else but the planned refusals
has changed. -/
structure Tended (es : Route → List Effect) (u v : Usage Facility) : Prop where
  placeholder : ∀ ρ, v.bridge.facility.placeholders.get? ρ =
    (u.bridge.facility.placeholders.get? ρ).map (Placeholder.tended (es ρ))
  live : v.bridge.live = u.bridge.live
  held : v.held = u.held
  beside : u.bridge.facility.AlikeBeside v.bridge.facility

namespace Tended

variable {es es' : Route → List Effect} {e : Effect}

theorem of_same (hplaceholders : v.bridge.facility.placeholders = u.bridge.facility.placeholders)
    (hlive : v.bridge.live = u.bridge.live) (hheld : v.held = u.held)
    (hbeside : u.bridge.facility.AlikeBeside v.bridge.facility) : Tended (fun _ => []) u v where
  placeholder ρ := by rw [hplaceholders, Placeholder.tended_nil, Option.map_id_apply]
  live := hlive
  held := hheld
  beside := hbeside

theorem refl (u : Usage Facility) : Tended (fun _ => []) u u := of_same rfl rfl rfl (.refl _)

theorem trans (h : Tended es u v) (h' : Tended es' v w) : Tended (fun ρ => es ρ ++ es' ρ) u w where
  placeholder ρ := by
    rw [h'.placeholder, h.placeholder, Option.map_map]
    exact congrArg (Option.map · _) (funext fun p => (p.tended_append (es ρ) (es' ρ)).symm)
  live := h'.live.trans h.live
  held := h'.held.trans h.held
  beside := h.beside.trans h'.beside

theorem modify (u : Usage Facility) (path : Path) (e : Effect) :
    Tended (fun ρ => if path.route = ρ then [e] else []) u
      { u with bridge.facility.placeholders :=
        u.bridge.facility.placeholders.modify path.route (Placeholder.tended [e]) } where
  placeholder ρ := by
    by_cases hρ : path.route = ρ
    · subst hρ
      rw [if_pos rfl]
      exact Table.get?_modify_self
    · rw [if_neg hρ, Placeholder.tended_nil, Option.map_id_apply]
      exact Table.get?_modify_of_ne (Ne.symm hρ)
  live := rfl
  held := rfl
  beside := ⟨_, _, rfl⟩

theorem put {p : Placeholder} (hp : u.bridge.facility.placeholder? path = some p) (e : Effect) :
    Tended (fun ρ => if path.route = ρ then [e] else []) u { u with bridge := u.bridge.put path (p.tended [e]) } := by
  rw [Bridge.put, ← Table.modify_of_get? hp]
  exact modify u path e

theorem of_outcome {op : Operation} {answer : Except PlaceholderError Unit} {b : Bridge Facility}
    (h : Bridge.Outcome path op (Placeholder.tended [e]) u.bridge answer b) :
    Tended (fun ρ => if path.route = ρ ∧ answer.isOk = true then [e] else []) u { u with bridge := b } := by
  cases h with
  | done p hp =>
    have hok : (Except.ok () : Except PlaceholderError Unit).isOk = true := rfl
    simp only [hok, and_true]
    exact put hp e
  | failed failure =>
    simp only [Except.isOk, Except.toBool, Bool.false_eq_true, and_false, if_false]
    exact refl u
  | faulted failure status hplanned =>
    simp only [Except.isOk, Except.toBool, Bool.false_eq_true, and_false, if_false]
    exact of_same rfl rfl rfl ⟨_, _, rfl⟩

end Tended

theorem tended_fill (u : Usage Facility) (path : Path) (data : Bytes) :
    Tended (fun ρ => u.effect ρ (.elsewhere (.fill path data))) u (u.next react (.elsewhere (.fill path data))) := by
  simp only [effect, next, react, Facility.next]
  cases hput : u.bridge.facility.putContent path data with
  | error s =>
    simp only [Except.isOk, Except.toBool, Bool.false_eq_true, and_false, if_false]
    exact .refl u
  | ok g =>
    obtain ⟨p, hp, -, rfl⟩ := Facility.putContent_ok.1 hput
    simp only [Except.isOk, Except.toBool, and_true]
    exact .put hp (.filled data)

theorem tended_next (u : Usage Facility) (hm : isUpkeep m = true) :
    Tended (fun ρ => u.effect ρ m) u (u.next react m) := by
  cases m with
  | update path identity size mtime => exact .of_outcome (Bridge.outcome_update path identity size mtime u.bridge)
  | dehydrate path => exact .of_outcome (Bridge.outcome_dehydrate path u.bridge)
  | elsewhere fm =>
    cases fm with
    | planFault op status => exact .of_same rfl rfl rfl ⟨_, _, rfl⟩
    | markInUse path inUse => exact .modify u path (.marked inUse)
    | fill path data => exact tended_fill u path data
    | _ => cases hm
  | _ => cases hm

theorem tended_foldl (u : Usage Facility) (h : ∀ m ∈ ms, isUpkeep m = true) :
    Tended (fun ρ => u.effects ρ ms) u (ms.foldl (next react) u) := by
  induction ms generalizing u with
  | nil => exact .refl u
  | cons m ms ih =>
    obtain ⟨hm, hms⟩ := List.forall_mem_cons.1 h
    exact (tended_next u hm).trans (ih _ hms)

/-! ## The whole -/

/-- An update that succeeds sets identity, size, sync mark and, unless it is file time zero, the times of writing and of
change; an eviction that succeeds takes away the content; one that fails changes nothing. So after an upkeep each
placeholder has of each field the latest value set at its place, and otherwise what it was created with, and nothing else
but the planned refusals has changed. -/
theorem upkeep_keeps_latest :
    (∀ (b : Bridge Facility) (path : Path) (identity : FileIdentity) (size : Nat) (mtime : Int),
      Bridge.Outcome path .update (Placeholder.tended [.updated identity size mtime]) b
        (Bridge.update path identity size mtime b).1 (Bridge.update path identity size mtime b).2 ∧
      ((Bridge.update path identity size mtime b).1.isOk = true ↔
        identity.length ≤ FileIdentity.maxLength ∧ size ≤ Word.maxSigned ∧ b.facility.faults .update = none ∧
          ∃ p, b.facility.placeholder? path = some p)) ∧
    (∀ (b : Bridge Facility) (path : Path),
      Bridge.Outcome path .dehydrate (fun p => { p with content := none }) b
        (Bridge.dehydrate path b).1 (Bridge.dehydrate path b).2 ∧
      ((Bridge.dehydrate path b).1.isOk = true ↔
        b.facility.faults .dehydrate = none ∧
          ∃ p, b.facility.placeholder? path = some p ∧ p.isDirectory = false ∧ p.inUse = false)) ∧
    (∀ (u : Usage Facility) (ms : List (Move Facility.Move)), (∀ m ∈ ms, isUpkeep m = true) →
      let v := ms.foldl (next react) u
      (∀ ρ, v.bridge.facility.placeholders.get? ρ =
        (u.bridge.facility.placeholders.get? ρ).map (Placeholder.tended (u.effects ρ ms))) ∧
      v.bridge.live = u.bridge.live ∧ v.held = u.held ∧
      ∃ placeholders faults, v.bridge.facility = { u.bridge.facility with placeholders, faults }) ∧
    ∀ (u : Usage Facility) (parent : Path) (name : String) (identity : FileIdentity) (size : Nat) (mtime : Int)
      (directory : Bool) (ms : List (Move Facility.Move)),
      (Bridge.create parent name identity size mtime directory u.bridge).1.isOk = true →
      (∀ m ∈ ms, isUpkeep m = true) →
        let path := parent.join name
        let made := u.next react (.create parent name identity size mtime directory)
        (ms.foldl (next react) made).bridge.facility.placeholder? path =
          some ((Placeholder.create path (.of name identity size mtime directory)).tended (made.effects path.route ms)) := by
  refine ⟨fun b path identity size mtime => ⟨Bridge.outcome_update .., Bridge.update_isOk_iff⟩,
    fun b path => ⟨Bridge.outcome_dehydrate .., Bridge.dehydrate_isOk_iff⟩, fun u ms hms => ?_, ?_⟩
  · obtain ⟨hplaceholder, hlive, hheld, hbeside⟩ := tended_foldl u hms
    exact ⟨hplaceholder, hlive, hheld, hbeside⟩
  · intro u parent name identity size mtime directory ms hcreate hms path made
    have hmade : made.bridge.facility.placeholder? path = _ := Bridge.placeholder?_create hcreate
    exact ((tended_foldl made hms).placeholder path.route).trans (congrArg _ hmade)

/-- A file is filled, updated and in use. Five calls fail, and the last update bears the time that is file time zero. -/
def mixedUpkeep : List (Move Facility.Move) :=
  [.elsewhere (.fill ⟨"/s/a"⟩ [1, 2]), .update ⟨"/s/a"⟩ (.ofText "v2") 8 200,
    .update ⟨"/s/a"⟩ (.ofText "v3") 9223372036854775808 300, .update ⟨"/s/a"⟩ ⟨.replicate 4097 0⟩ 9 400,
    .elsewhere (.markInUse ⟨"/s/a"⟩ true), .dehydrate ⟨"/s/a"⟩,
    .elsewhere (.planFault .update .accessDenied), .update ⟨"/s/./a"⟩ (.ofText "v4") 10 500,
    .update ⟨"/s/gone"⟩ (.ofText "v5") 11 600, .update ⟨"/s/a/"⟩ (.ofText "v6") 16 (-11644473600),
    .elsewhere (.markInUse ⟨"/s/a"⟩ false), .dehydrate ⟨"/s/a"⟩]

open Filetime (ofUnix) in
theorem upkeep_keeps_latest_mixed :
    let u : Usage Facility := start (Facility.register ⟨"/s"⟩ (.new "name" "1") .empty).2
    let path := (⟨"/s"⟩ : Path).join "a"
    let made := u.next react (.create ⟨"/s"⟩ "a" (.ofText "v1") 4 100 false)
    let v := mixedUpkeep.foldl (next react) made
    made.effects path.route mixedUpkeep =
      [.filled [1, 2], .updated (.ofText "v2") 8 200, .marked true, .updated (.ofText "v6") 16 (-11644473600), .marked false,
        .evicted] ∧
    v.bridge.facility.placeholder? path =
      some ⟨path, .ofText "v6", ⟨16, ofUnix 100, ofUnix 100, ofUnix 200, ofUnix 200, Metadata.normalAttribute⟩, true, true,
        none, false⟩ ∧
    v.bridge.live = made.bridge.live := by
  obtain ⟨-, -, hrun, hmade⟩ := upkeep_keeps_latest
  have hupkeep : ∀ m ∈ mixedUpkeep, isUpkeep m = true := by decide
  have htended := hmade (start (Facility.register ⟨"/s"⟩ (.new "name" "1") .empty).2) ⟨"/s"⟩ "a" (.ofText "v1") 4 100 false
    mixedUpkeep (by decide +kernel) hupkeep
  dsimp only at htended ⊢
  rw [htended]
  exact ⟨by decide +kernel, by decide +kernel, (hrun _ mixedUpkeep hupkeep).2.1⟩

end Usage

end OnDemand
