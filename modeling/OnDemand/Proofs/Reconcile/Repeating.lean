import OnDemand.Proofs.Reconcile.Population
import OnDemand.Proofs.Reconcile.Upsert

/-!
# Populating again

When a catalog is populated a second time, every errand finds what it would leave, or is refused as it was the first
time. Later errands of the first pass do not disturb that: they change neither what stands at the place of an earlier
entry nor the directory that holds it.
-/

namespace OnDemand

/-! ## Updates repeat -/

theorem Metadata.amend_amend (m amendment : Metadata) : (m.amend amendment).amend amendment = m.amend amendment := by
  simp only [amend, mk.injEq, true_and]
  refine ⟨?_, ?_, ?_, ?_, ?_⟩ <;> split <;> rfl

/-- The metadata of a new file already says what an amendment to the same size and time says. -/
theorem Metadata.amend_initial (size mtime : Int) :
    (initial size mtime false).amend (.amendment size mtime) = initial size mtime false := by
  simp [amend, initial, amendment]

theorem Placeholder.update_update (p : Placeholder) (metadata : Metadata) (identity : FileIdentity) :
    (p.update metadata identity).update metadata identity = p.update metadata identity := by
  simp only [update, Metadata.amend_amend]

/-! ## Tallies of the same attempts -/

/-- The tally of the same attempts when nothing is left to create. -/
def Tally.again (t : Tally) : Tally := ⟨0, t.created + t.updated, t.failed, t.removedRemotely⟩

theorem Tally.again_count {ε : Type} (t : Tally) (outcome : Except ε Placed) :
    (t.count outcome).again = t.again.count (outcome.map fun _ => .updated) := by
  cases outcome with
  | error failure => rfl
  | ok placed =>
    cases placed with
    | created => simp only [again, count, Except.map, Nat.add_right_comm]
    | updated => rfl

namespace Reconcile

open Catalog (ofList)

variable {root path : Path} {d e : Entry} {f g : Facility} {b : Bridge Facility} {p : Placeholder}
  {outcome : Except PlaceholderError Placed} {l : List Entry}

theorem renewed_renewed : renewed e (renewed e p) = renewed e p := Placeholder.update_update ..

theorem renewed_fresh (hfile : e.directory = false) : renewed e (fresh root e) = fresh root e := by
  simp only [renewed, fresh, hfile, Placeholder.update, Placeholder.create, NewPlaceholder.of, Metadata.amend_initial]

/-- What is left is what would be left. -/
theorem leaves_leaves (root : Path) (e : Entry) (old : Option Placeholder) :
    Errand.leaves root ⟨e, true⟩ (some (Errand.leaves root ⟨e, true⟩ old)) = Errand.leaves root ⟨e, true⟩ old := by
  cases hdirectory : e.directory with
  | true =>
    have hstays : ∀ p, Errand.leaves root ⟨e, true⟩ (some p) = p := fun p => if_pos hdirectory
    exact hstays _
  | false =>
    have hrenewed : ∀ p, Errand.leaves root ⟨e, true⟩ (some p) = renewed e p := fun p =>
      if_neg (by rw [Bool.true_and, hdirectory]; exact Bool.false_ne_true)
    rw [hrenewed]
    cases old with
    | none => exact renewed_fresh hdirectory
    | some p => rw [hrenewed, renewed_renewed]

/-! ## Entries at rest -/

/-- Placing `e` comes out as `outcome` and changes nothing: what it would leave stands already, or it is refused. -/
inductive Rests (root : Path) (e : Entry) (f : Facility) : Except PlaceholderError Placed → Prop where
  | standing {p : Placeholder} (hplaceable : Placeable root e f) (hp : f.placeholder? (e.pathIn root) = some p)
      (hleaves : Errand.leaves root ⟨e, true⟩ (some p) = p) : Rests root e f (.ok .updated)
  | refused (h : ¬Placeable root e f) : Rests root e f (.error (obstacle root e f))

theorem Rests.placeAdded (h : Rests root e b.facility outcome) (hcalm : b.facility.Calm) :
    placeAdded root e b = (outcome, b) := by
  cases h with
  | standing hplaceable hp hleaves =>
    rw [placeAdded_of_placeable hcalm hplaceable, hp, hleaves, Bridge.put_of_placeholder? hp]
    rfl
  | refused h => exact placeAdded_of_not_placeable hcalm h

theorem placeable_put (hparent : (e.parentIn root).route ≠ path.route) :
    Placeable root e (b.put path p).facility ↔ Placeable root e b.facility := by
  have hholder : (b.put path p).facility.placeholder? (e.parentIn root) = b.facility.placeholder? (e.parentIn root) :=
    Table.get?_insert_of_ne hparent
  have htakes : (b.put path p).facility.Takes (e.parentIn root) ↔ b.facility.Takes (e.parentIn root) :=
    Facility.takes_congr rfl (by rw [hholder])
  exact ⟨fun h => ⟨h.name, h.fits, htakes.1 h.parent⟩, fun h => ⟨h.name, h.fits, htakes.2 h.parent⟩⟩

/-- What is put elsewhere than at the place of an entry and at that of its parent leaves it at rest. -/
theorem Rests.put (h : Rests root e b.facility outcome) (hplace : (e.pathIn root).route ≠ path.route)
    (hparent : (e.parentIn root).route ≠ path.route) : Rests root e (b.put path p).facility outcome := by
  cases h with
  | standing hplaceable hp hleaves =>
    exact .standing ((placeable_put hparent).2 hplaceable) ((Table.get?_insert_of_ne hplace).trans hp) hleaves
  | refused h =>
    have horphan : (b.put path p).facility.orphanStatus (e.parentIn root) = b.facility.orphanStatus (e.parentIn root) :=
      Facility.orphanStatus_congr rfl _
    have hobstacle : obstacle root e (b.put path p).facility = obstacle root e b.facility := by
      rw [obstacle, horphan, obstacle]
    rw [← hobstacle]
    exact .refused (mt (placeable_put hparent).1 h)

/-! ## Placing entries in the order of their paths -/

theorem calm_placeAdded (hcalm : b.facility.Calm) (root : Path) (e : Entry) : (placeAdded root e b).2.facility.Calm := by
  by_cases h : Placeable root e b.facility
  · rw [placeAdded_of_placeable hcalm h]
    exact ⟨hcalm.create, hcalm.update⟩
  · rw [placeAdded_of_not_placeable hcalm h]
    exact hcalm

/-- An entry that has been placed is at rest. -/
theorem rests_placeAdded (hcalm : b.facility.Calm) (he : Entry.IsTidy e.path) :
    Rests root e (placeAdded root e b).2.facility ((placeAdded root e b).1.map fun _ => .updated) := by
  by_cases h : Placeable root e b.facility
  · rw [placeAdded_of_placeable hcalm h]
    exact .standing ((placeable_put (he.parentIn_ne he (String.lt_irrefl _))).2 h) Table.get?_insert_self (leaves_leaves ..)
  · rw [placeAdded_of_not_placeable hcalm h]
    exact .refused h

/-- It stays at rest when one that comes after it is placed. -/
theorem Rests.after (h : Rests root d b.facility outcome) (hcalm : b.facility.Calm) (hd : Entry.IsTidy d.path)
    (he : Entry.IsTidy e.path) (hlt : d.path < e.path) :
    Rests root d (Reconcile.placeAdded root e b).2.facility outcome := by
  by_cases hplaceable : Placeable root e b.facility
  · rw [placeAdded_of_placeable hcalm hplaceable]
    refine h.put (fun hplace => ?_) (hd.parentIn_ne he (String.lt_asymm hlt))
    rw [hd.path_eq he hplace] at hlt
    exact String.lt_irrefl _ hlt
  · rw [placeAdded_of_not_placeable hcalm hplaceable]
    exact h

theorem calm_carryOut (hcalm : b.facility.Calm) (root : Path) (l : List Entry) :
    (carryOut root (l.map (⟨·, true⟩)) b).facility.Calm := by
  induction l generalizing b with
  | nil => exact hcalm
  | cons e l ih =>
    rw [List.map_cons, carryOut_cons, place_new]
    exact ih (calm_placeAdded hcalm root e)

theorem Rests.carryOut (h : Rests root d b.facility outcome) (hcalm : b.facility.Calm) (hd : Entry.IsTidy d.path)
    (htidy : ∀ e ∈ l, Entry.IsTidy e.path) (hlater : ∀ e ∈ l, d.path < e.path) :
    Rests root d (carryOut root (l.map (⟨·, true⟩)) b).facility outcome := by
  induction l generalizing b with
  | nil => exact h
  | cons e l ih =>
    rw [List.map_cons, carryOut_cons, place_new]
    have hnext := h.after hcalm hd (htidy e List.mem_cons_self) (hlater e List.mem_cons_self)
    exact ih hnext (calm_placeAdded hcalm root e) (fun e' he' => htidy e' (List.mem_cons_of_mem e he')) fun e' he' =>
      hlater e' (List.mem_cons_of_mem e he')

/-- After a pass over entries in the order of their paths, all of them are at rest. -/
theorem rests_carryOut (hcalm : b.facility.Calm) (htidy : ∀ e ∈ l, Entry.IsTidy e.path)
    (hsorted : l.Pairwise fun d e => d.path < e.path) :
    ∀ a ∈ attempts root (l.map (⟨·, true⟩)) b, Rests root a.errand.entry
      (carryOut root (l.map (⟨·, true⟩)) b).facility (a.outcome.map fun _ => .updated) := by
  induction l generalizing b with
  | nil => exact fun a ha => absurd ha List.not_mem_nil
  | cons e l ih =>
    obtain ⟨hlater, hsorted⟩ := List.pairwise_cons.1 hsorted
    have hrest : ∀ e' ∈ l, Entry.IsTidy e'.path := fun e' he' => htidy e' (List.mem_cons_of_mem e he')
    have he : Entry.IsTidy e.path := htidy e List.mem_cons_self
    have hnext := calm_placeAdded hcalm root e
    rw [List.map_cons, attempts_cons, carryOut_cons, place_new]
    intro a ha
    rcases List.mem_cons.1 ha with rfl | ha
    · rw [outcome_attempt, place_new]
      exact (rests_placeAdded hcalm he).carryOut hnext he hrest hlater
    · exact ih hnext hrest hsorted a ha

/-! ## The second pass -/

/-- The attempt at the same errand on `b`, where it changes nothing: what was created is now updated. -/
def Attempt.again (b : Bridge Facility) (a : Attempt Facility) : Attempt Facility :=
  ⟨a.errand, b, a.outcome.map fun _ => .updated, b⟩

theorem attempts_of_rests {as : List (Attempt Facility)} (hcalm : b.facility.Calm) (hnew : ∀ a ∈ as, a.errand.isNew = true)
    (hrests : ∀ a ∈ as, Rests root a.errand.entry b.facility (a.outcome.map fun _ => .updated)) :
    attempts root (as.map (·.errand)) b = as.map (·.again b) ∧ carryOut root (as.map (·.errand)) b = b := by
  induction as with
  | nil => exact ⟨rfl, rfl⟩
  | cons a as ih =>
    have hplace : a.errand.place root b = (a.outcome.map fun _ => .updated, b) := by
      rw [Errand.place, if_pos (hnew a List.mem_cons_self)]
      exact (hrests a List.mem_cons_self).placeAdded hcalm
    obtain ⟨hattempts, hcarry⟩ := ih (fun a' ha' => hnew a' (List.mem_cons_of_mem a ha')) fun a' ha' =>
      hrests a' (List.mem_cons_of_mem a ha')
    rw [List.map_cons, List.map_cons, attempts_cons, carryOut_cons, Errand.attempt, hplace, hattempts, hcarry]
    exact ⟨rfl, rfl⟩

theorem tally_again (b : Bridge Facility) (t : Tally) (as : List (Attempt Facility)) :
    tally t.again (as.map (·.again b)) = (tally t as).again := by
  induction as generalizing t with
  | nil => rfl
  | cons a as ih =>
    rw [List.map_cons, tally_cons, tally_cons, ← ih, Tally.again_count]
    rfl

/-- Populating a catalog of tidy paths twice in a row: the second pass leaves everything as the first has left it. Every
entry comes out as it did the first time, except that what was created is now updated, so the same entries fail. -/
theorem repopulating_idempotent (htidy : ∀ e ∈ l, Entry.IsTidy e.path) (hcalm : b.facility.Calm) (root : Path) :
    let d := Catalog.empty.diff (ofList l)
    let first := run root d b
    let second := run root d first.2
    second.2 = first.2 ∧ second.1 = ⟨0, first.1.created + first.1.updated, first.1.failed, 0⟩ ∧
      attempts root (errands d) first.2 = (attempts root (errands d) b).map (·.again first.2) := by
  intro d first second
  have hkeyed := Catalog.keyed_ofList l
  have hall : ∀ e ∈ (ofList l).toList, Entry.IsTidy e.path := fun e he =>
    Catalog.isTidy_of_get? htidy (hkeyed.mem_toList.1 he)
  have hnew : ∀ a ∈ attempts root (errands d) b, a.errand.isNew = true := fun a ha => by
    have herrand := (eq_attempt_of_mem ha).1
    rw [Catalog.errands_populate] at herrand
    obtain ⟨e, -, he⟩ := List.mem_map.1 herrand
    rw [← he]
  have hbridge : first.2 = carryOut root (errands d) b := congrArg Prod.snd (run_eq root d b)
  have hcalm' : first.2.facility.Calm := by
    rw [hbridge, Catalog.errands_populate]
    exact calm_carryOut hcalm root _
  have hrests : ∀ a ∈ attempts root (errands d) b,
      Rests root a.errand.entry first.2.facility (a.outcome.map fun _ => .updated) := by
    rw [hbridge, Catalog.errands_populate]
    exact rests_carryOut hcalm hall hkeyed.increasing
  obtain ⟨hattempts, hcarry⟩ := attempts_of_rests hcalm' hnew hrests
  rw [map_errand_attempts] at hattempts hcarry
  refine ⟨?_, ?_, hattempts⟩
  · exact (congrArg Prod.snd (run_eq root d first.2)).trans hcarry
  · have hfirst : first.1 = { tally .zero (attempts root (errands d) b) with removedRemotely := 0 } :=
      congrArg Prod.fst (run_eq root d b)
    have hsecond : second.1 = { tally .zero (attempts root (errands d) first.2) with removedRemotely := 0 } :=
      congrArg Prod.fst (run_eq root d first.2)
    have hzero : Tally.zero = Tally.zero.again := rfl
    rw [hsecond, hattempts, hzero, tally_again, hfirst]
    rfl

/-- Names that cannot be one, a file above a file, and a file that stands where a directory is to be. -/
def refusedInPart : List Entry :=
  [⟨"../x", "o", 1, 1, false⟩, ⟨"a", "p", 2, 2, false⟩, ⟨"a/b", "q", 3, 3, false⟩, ⟨"c/d", "r", 4, 4, false⟩]

theorem repopulating_idempotent_refusedInPart :
    let d := Catalog.empty.diff (ofList refusedInPart)
    let b := (placeAdded ⟨"/s"⟩ ⟨"c", "o", 1, 1, false⟩ oneRoot).2
    let first := run ⟨"/s"⟩ d b
    (∀ e ∈ refusedInPart, Entry.IsTidy e.path) ∧ b.facility.Calm ∧ first.1 = ⟨1, 1, 4, 0⟩ ∧
      (run ⟨"/s"⟩ d first.2).1 = ⟨0, 2, 4, 0⟩ ∧ (run ⟨"/s"⟩ d first.2).2 = first.2 := by
  intro d b first
  have htidy : ∀ e ∈ refusedInPart, Entry.IsTidy e.path := by decide +kernel
  have hcalm : b.facility.Calm := ⟨by decide +kernel, by decide +kernel⟩
  have hfirst : first.1 = ⟨1, 1, 4, 0⟩ := by decide +kernel
  obtain ⟨hbridge, htally, -⟩ := repopulating_idempotent htidy hcalm ⟨"/s"⟩
  exact ⟨htidy, hcalm, hfirst, by rw [htally, hfirst]; rfl, hbridge⟩

end Reconcile

end OnDemand
