import OnDemand.Proofs.Bridge.InMemory
import OnDemand.Proofs.Facility.Isolation
import OnDemand.Proofs.Hydration.Callbacks
import OnDemand.Proofs.Service.Operations

/-!
# Turns while a root is served

While a root is served, the parts of callbacks, the pool, its jobs, the single calls that place entries, and applications
take turns in any order. They leave the roots and their connections alone, and whatever a service does comes to such turns.
-/

namespace OnDemand

variable {b : Bridge Facility} {h h' : Hydration Facility} {m : Hydration.Move} {t t' : Hydration.Traffic Facility}

/-! ## Answers leave the roots alone -/

theorem Bridge.stands_deliver (b : Bridge Facility) (connection : ConnectionKey) (k : TransferKey) (c : Completion) :
    b.facility.Stands (b.deliver connection k c).2.facility := by
  rcases Bridge.deliver_facility connection k c b with hsame | hnext
  · rw [hsame]
    exact .refl _
  · rw [hnext]
    exact Facility.stands_next _ rfl

theorem Answer.stands_send (r : Request) (plan : List Completion) (b : Bridge Facility) :
    b.facility.Stands (send r plan b).2.facility := by
  induction plan generalizing b with
  | nil => exact .refl _
  | cons c rest ih =>
    have hdeliver := b.stands_deliver r.connection r.transfer c
    rw [send]
    split <;> rename_i b' hb <;> rw [hb] at hdeliver
    · exact hdeliver.trans (ih b')
    · exact hdeliver

theorem Answer.stands_run (r : Request) (plan : List Completion) (b : Bridge Facility) :
    b.facility.Stands (run r plan b).2.facility := by
  rw [run_bridge]
  exact stands_send r plan b

theorem Hydration.Step.stands (hstep : Step h m h') : h.bridge.facility.Stands h'.bridge.facility := by
  cases hstep with
  | refused info ha => exact Answer.stands_run _ _ _
  | drained hstage hq => exact Answer.stands_run _ _ _
  | finished fetched hjob => exact Answer.stands_run _ _ _
  | _ => exact .refl _

theorem Hydration.Traffic.Proceeds.persists (hp : t.Proceeds t') :
    t.hydration.bridge.facility.Persists t'.hydration.bridge.facility := by
  rcases hp.bridge_eq with he | ⟨r, he⟩ <;> rw [he]
  · exact .refl _
  · exact Facility.persists_next _ (m := .execute ((Fetching.refusal r).operation r.connection r.transfer)) rfl

namespace Service

open Hydration (Traffic Tallied)

variable {objects : String → Option Bytes} {v v' : Service Facility} {capacity : Nat} {pool : PoolConfig}
  {c : Counters} {l : Hydration.Ledger}

/-! ## Turns -/

/-- The move is about placeholders or transfers, and plans no refusal of leaving a root. -/
def isBeside : Usage.Move Facility.Move → Bool
  | .create _ _ _ _ _ _ | .update _ _ _ _ | .dehydrate _ | .deliver _ _ _ => true
  | .elsewhere fm => fm.isBeside
  | _ => false

/-- One thing that happens while a root is served: a part of a callback for wanted bytes, a callback that takes a request
back, a step of the pool or of a job, or one call beside them. -/
inductive Turn (t : Traffic Facility) : Traffic Facility → Prop where
  | part {t' : Traffic Facility} (hp : t.Proceeds t') : Turn t t'
  | work {m : Hydration.Move} {h' : Hydration Facility} (hm : t.hydration.move? m = some h')
      (hfetch : ∀ info, m ≠ .fetch info) : Turn t { t with hydration := h' }
  | beside (m : Usage.Move Facility.Move) (hm : isBeside m = true) :
      Turn t { t with hydration.bridge := ((⟨t.hydration.bridge, []⟩ : Usage Facility).next Usage.react m).bridge }

abbrev Turns : Traffic Facility → Traffic Facility → Prop := Relation.ReflTransGen Turn

theorem stands_beside {m : Usage.Move Facility.Move} (b : Bridge Facility) (hm : isBeside m = true) :
    b.facility.Stands ((⟨b, []⟩ : Usage Facility).next Usage.react m).bridge.facility := by
  rcases Usage.facility_next ⟨b, []⟩ m with hsame | ⟨fm, hmakes, hfm⟩
  · rw [hsame]
    exact .refl _
  · rw [hfm]
    refine Facility.stands_next _ ?_
    cases m with
    | elsewhere fm' =>
      obtain rfl : fm = fm' := hmakes
      exact hm
    | create | update | dehydrate | deliver =>
      obtain rfl := hmakes
      rfl
    | _ => cases hm

theorem Turn.stands (ht : Turn t t') : t.hydration.bridge.facility.Stands t'.hydration.bridge.facility := by
  cases ht with
  | part hp => exact hp.persists.stands
  | work hm => exact (Hydration.step_of_move? hm).stands
  | beside m hm => exact stands_beside t.hydration.bridge hm

theorem turns_move (hm : h.move? m = some h') (underway : List Hydration.Fetching) : Turns ⟨h, underway⟩ ⟨h', underway⟩ := by
  -- A callback for wanted bytes takes several turns, any other move is one.
  by_cases hfetch : ∃ info, m = .fetch info
  · obtain ⟨info, rfl⟩ := hfetch
    exact Relation.ReflTransGen.mono (fun _ _ => .part) _ _ (Hydration.proceeds_fetch hm underway)
  · exact .single (.work (t := ⟨h, underway⟩) hm fun info he => hfetch ⟨info, he⟩)

/-- The state after moves of the channel and its pool; those that are not possible change nothing. -/
def attempt (h : Hydration Facility) (ms : List Hydration.Move) : Hydration Facility :=
  ms.foldl (fun h m => (h.move? m).getD h) h

theorem composes_turns : Reconcile.Composes fun b b' : Bridge Facility =>
    ∀ t : Traffic Facility, t.hydration.bridge = b → Turns t { t with hydration.bridge := b' } where
  refl _ _ hb := hb ▸ .refl
  trans hab hbc t hb := (hab t hb).trans (hbc _ rfl)
  create parent name identity size mtime directory _ _ hb :=
    hb ▸ .single (.beside (.create parent name identity size mtime directory) rfl)
  update path identity size mtime _ _ hb := hb ▸ .single (.beside (.update path identity size mtime) rfl)

theorem Step.turns (hstep : Step objects v v') (underway : List Hydration.Fetching) :
    Turns ⟨v.hydration, underway⟩ ⟨v'.hydration, underway⟩ := by
  cases hstep with
  | @read path offset length outcome f h hquiet =>
    have hf : f = v.hydration.bridge.facility.next (.read path offset length) := congrArg Prod.snd h.symm
    rw [hf]
    exact .single (.beside (.elsewhere (.read path offset length)) rfl)
  | @ask path offset length reader fetch f h' h hm =>
    have hf : f = v.hydration.bridge.facility.next (.read path offset length) := congrArg Prod.snd h.symm
    rw [hf] at hm
    exact .head (.beside (.elsewhere (.read path offset length)) rfl) (turns_move hm underway)
  | giveUp reader => exact .single (.beside (.elsewhere (.giveUp reader)) rfl)
  | markInUse path inUse => exact .single (.beside (.elsewhere (.markInUse path inUse)) rfl)
  | rearrange pick => exact .single (.beside (.elsewhere (.rearrange pick)) rfl)
  | dehydrate path => exact .single (.beside (.dehydrate path) rfl)
  | refresh store =>
    exact composes_turns.reload store v.config.storage.remotePrefix v.connection.root v.catalog v.hydration.bridge
      ⟨v.hydration, underway⟩ rfl
  | work hm hfetch hfinish => exact turns_move hm underway

theorem Step.kept (hstep : Step objects v v') : v'.config = v.config ∧ v'.connection = v.connection := by
  cases hstep <;> exact ⟨rfl, rfl⟩

theorem Steps.turns (hsteps : Steps objects v v') :
    Turns ⟨v.hydration, []⟩ ⟨v'.hydration, []⟩ ∧ v'.config = v.config ∧ v'.connection = v.connection := by
  induction hsteps with
  | refl => exact ⟨.refl, rfl, rfl⟩
  | tail _ hstep ih =>
    obtain ⟨hturns, hconfig, hconnection⟩ := ih
    obtain ⟨hconfig', hconnection'⟩ := hstep.kept
    exact ⟨hturns.trans (hstep.turns []), hconfig'.trans hconfig, hconnection'.trans hconnection⟩

end Service

end OnDemand
