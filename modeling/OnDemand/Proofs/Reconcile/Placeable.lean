import OnDemand.Proofs.Facility.Calm
import OnDemand.Proofs.Reconcile.Placing

/-!
# Errands without planned refusals

An entry can be placed if its name can be one, it fits the facility and its parent takes a placeholder. Its errand then
succeeds, and an errand that succeeds leaves a known placeholder at the place of its entry.
-/

namespace OnDemand.Reconcile

variable {root : Path} {e : Entry} {b : Bridge Facility} {x : Errand}

/-! ## Entries that can be placed -/

/-- The entry can have a placeholder at its place, or has one: its name can be one, it fits the facility, and its parent
takes a placeholder. -/
structure Placeable (root : Path) (e : Entry) (f : Facility) : Prop where
  name : Bridge.isValidName e.name = true
  fits : Bridge.fitsFacility (.ofText e.object) e.size = true
  parent : f.Takes (e.parentIn root)

/-- Why an entry that cannot be placed is refused. -/
def obstacle (root : Path) (e : Entry) (f : Facility) : PlaceholderError :=
  if Bridge.isValidName e.name ∧ Bridge.fitsFacility (.ofText e.object) e.size then
    .notFound (e.pathIn root) (f.orphanStatus (e.parentIn root))
  else .metadataRejected (e.pathIn root) .invalidArgument

/-- What the errand leaves at the place of its entry if it succeeds, where `old` stood. A directory that is to be added is
said to stand already, whatever stands there. -/
def Errand.leaves (root : Path) (x : Errand) : Option Placeholder → Placeholder
  | none => fresh root x.entry
  | some p => if x.isNew && x.entry.directory then p else renewed x.entry p

theorem placeAdded_of_placeable (hcalm : b.facility.Calm) (h : Placeable root e b.facility) :
    placeAdded root e b =
      (.ok (if (b.facility.placeholder? (e.pathIn root)).isSome then .updated else .created),
        b.put (e.pathIn root) (Errand.leaves root ⟨e, true⟩ (b.facility.placeholder? (e.pathIn root)))) := by
  rw [placeAdded_eq]
  cases hp : b.facility.placeholder? (e.pathIn root) with
  | none =>
    rw [Bridge.create_new hcalm.create h.name h.fits h.parent hp]
    rfl
  | some p =>
    rw [Bridge.create_taken hcalm.create h.name h.fits h.parent hp, Errand.leaves, Bool.true_and]
    by_cases hdirectory : e.directory = true
    · simp only [if_pos hdirectory, Bridge.put_of_placeholder? hp]
      rfl
    · simp only [if_neg hdirectory, Bridge.update_standing hcalm.update h.fits hp]
      rfl

theorem placeAdded_of_not_placeable (hcalm : b.facility.Calm) (h : ¬Placeable root e b.facility) :
    placeAdded root e b = (.error (obstacle root e b.facility), b) := by
  by_cases hadmitted : Bridge.isValidName e.name ∧ Bridge.fitsFacility (.ofText e.object) e.size
  · have horphan : ¬b.facility.Takes (e.parentIn root) := fun hparent => h ⟨hadmitted.1, hadmitted.2, hparent⟩
    rw [placeAdded_eq, Bridge.create_orphan hcalm.create hadmitted.1 hadmitted.2 horphan, obstacle, if_pos hadmitted]
    rfl
  · rw [placeAdded_refused hadmitted, obstacle, if_neg hadmitted]

/-- The errand for an entry that can be placed succeeds, whether something stands at its place or not. -/
theorem place_of_placeable (hcalm : b.facility.Calm) (h : Placeable root x.entry b.facility) :
    x.place root b =
      (.ok (if (b.facility.placeholder? (x.entry.pathIn root)).isSome then .updated else .created),
        b.put (x.entry.pathIn root) (x.leaves root (b.facility.placeholder? (x.entry.pathIn root)))) := by
  obtain ⟨e, isNew⟩ := x
  cases isNew with
  | true => exact placeAdded_of_placeable hcalm h
  | false =>
    rw [place_changed, placeChanged_eq]
    cases hp : b.facility.placeholder? (e.pathIn root) with
    | none =>
      rw [Bridge.update_missing hcalm.update h.fits hp]
      have hadded := placeAdded_of_placeable hcalm h
      rwa [hp] at hadded
    | some p =>
      rw [Bridge.update_standing hcalm.update h.fits hp]
      rfl

/-! ## Errands that succeed -/

theorem placeAdded_ok (hcalm : b.facility.Calm) (hok : (placeAdded root e b).1.isOk = true) :
    (placeAdded root e b).2 =
      b.put (e.pathIn root) (Errand.leaves root ⟨e, true⟩ (b.facility.placeholder? (e.pathIn root))) := by
  by_cases h : Placeable root e b.facility
  · rw [placeAdded_of_placeable hcalm h]
  · rw [placeAdded_of_not_placeable hcalm h] at hok
    cases hok

theorem place_ok (hcalm : b.facility.Calm) (hok : (x.place root b).1.isOk = true) :
    (x.place root b).2 =
      b.put (x.entry.pathIn root) (x.leaves root (b.facility.placeholder? (x.entry.pathIn root))) := by
  obtain ⟨e, isNew⟩ := x
  cases isNew with
  | true => exact placeAdded_ok hcalm hok
  | false =>
    rw [place_changed, placeChanged_eq] at hok ⊢
    by_cases hfits : Bridge.fitsFacility (.ofText e.object) e.size = true
    · cases hp : b.facility.placeholder? (e.pathIn root) with
      | none =>
        rw [Bridge.update_missing hcalm.update hfits hp] at hok ⊢
        have hadded := placeAdded_ok hcalm hok
        rwa [hp] at hadded
      | some p =>
        rw [Bridge.update_standing hcalm.update hfits hp]
        rfl
    · rw [Bridge.update_refused hfits] at hok
      cases hok

theorem isDirectory_leaves (root : Path) (x : Errand) (old : Option Placeholder) :
    (x.leaves root old).isDirectory = (old.map Placeholder.isDirectory).getD x.entry.directory := by
  cases old with
  | none => exact isDirectory_fresh
  | some p =>
    rw [Errand.leaves]
    split <;> rfl

theorem mirrors_leaves (old : Option Placeholder) (hfile : x.entry.directory = false) :
    (x.leaves root old).Mirrors x.entry := by
  cases old with
  | none => exact mirrors_fresh hfile
  | some p =>
    rw [Errand.leaves, hfile, Bool.and_false]
    exact mirrors_renewed

end OnDemand.Reconcile
