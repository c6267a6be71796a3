import OnDemand.Bridge.Placeholder
import OnDemand.Proofs.Facility.Calls

/-!
# Creating and updating without planned refusals

A placeholder is then created wherever its parent takes one and nothing stands in the way, and updated wherever it is.
Whatever else is asked for changes nothing.
-/

namespace OnDemand

namespace Facility

variable {f g : Facility} {path parent : Path}

/-- No refusal of a creation or an update is planned. -/
structure Calm (f : Facility) : Prop where
  create : f.faults .create = none
  update : f.faults .update = none

/-- A placeholder can be made in `parent`: it is the root that covers it, or there is a directory at its place. -/
def Takes (parent : Path) (f : Facility) : Prop :=
  ∃ root, f.coveringRoot? parent = some root ∧ f.holdsChildren root parent = true

/-- What the facility says of a parent in which no placeholder can be made. -/
def orphanStatus (parent : Path) (f : Facility) : Status :=
  if (f.coveringRoot? parent).isSome then .pathNotFound else .notACloudFile

/-- Whether a parent takes a placeholder is a question of the roots, and of what stands at its own place. -/
theorem takes_congr (hroots : g.registrations = f.registrations)
    (hparent : (g.placeholder? parent).map Placeholder.isDirectory = (f.placeholder? parent).map Placeholder.isDirectory) :
    g.Takes parent ↔ f.Takes parent := by
  have hany : (g.placeholder? parent).any Placeholder.isDirectory = (f.placeholder? parent).any Placeholder.isDirectory := by
    have hmap := congrArg (Option.any id) hparent
    rwa [Option.any_map, Option.any_map] at hmap
  simp only [Takes, coveringRoot?, holdsChildren, hroots, hany]

theorem orphanStatus_congr (hroots : g.registrations = f.registrations) (parent : Path) :
    g.orphanStatus parent = f.orphanStatus parent := by
  rw [orphanStatus, coveringRoot?, hroots, ← coveringRoot?, ← orphanStatus]

theorem attempt_eq_of_calm {α : Type} {op : Operation} {body : Facility → Except Status (α × Facility)} {status : Status}
    (h : f.faults op = none) (hbody : body f = .error status) : attempt op body f = (.error status, f) := by
  unfold attempt
  rw [dropFault_eq_self h, h]
  simp only [hbody]

theorem create_taken (h : f.faults .create = none) (htakes : f.Takes parent) {new : NewPlaceholder}
    (hfits : new.identity.fits = true) {p : Placeholder} (hp : f.placeholder? (parent.join new.name) = some p) :
    create parent new f = (.error .alreadyExists, f) := by
  obtain ⟨root, hroot, hholds⟩ := htakes
  refine attempt_eq_of_calm h ?_
  simp only [hroot, hholds, hfits, hp, check_bind]
  rfl

theorem create_orphan (h : f.faults .create = none) (horphan : ¬f.Takes parent) (new : NewPlaceholder) :
    create parent new f = (.error (f.orphanStatus parent), f) := by
  refine attempt_eq_of_calm h ?_
  cases hroot : f.coveringRoot? parent with
  | none => simp only [orphanStatus, hroot]; rfl
  | some root =>
    have hholds : f.holdsChildren root parent = false := Bool.eq_false_iff.2 fun hholds => horphan ⟨root, hroot, hholds⟩
    simp only [orphanStatus, hroot, hholds, check_bind]
    rfl

theorem update_missing (h : f.faults .update = none) (hnone : f.placeholder? path = none) (metadata : Metadata)
    (identity : FileIdentity) : update path metadata identity f = (.error .fileNotFound, f) := by
  refine attempt_eq_of_calm h ?_
  rw [changePlaceholder, hnone]

end Facility

namespace Bridge

variable {b : Bridge Facility} {path parent : Path} {name : String} {identity : FileIdentity} {size : Nat}

/-- The bridge with `p` at `path`. -/
def put (path : Path) (p : Placeholder) (b : Bridge Facility) : Bridge Facility :=
  { b with facility := { b.facility with placeholders := b.facility.placeholders.insert path.route p } }

/-- Putting a placeholder where it stands changes nothing. -/
theorem put_of_placeholder? {p : Placeholder} (hp : b.facility.placeholder? path = some p) : b.put path p = b := by
  rw [put, Table.insert_of_get? hp]

section Creating

variable (h : b.facility.faults .create = none) (hname : isValidName name = true)
  (hfits : fitsFacility identity size = true)

include h hname hfits

theorem create_new (htakes : b.facility.Takes parent) (hnone : b.facility.placeholder? (parent.join name) = none)
    (mtime : Int) (directory : Bool) :
    create parent name identity size mtime directory b =
      (.ok (), b.put (parent.join name) (.create (parent.join name) (.of name identity size mtime directory))) := by
  have hcall : CloudFacility.createPlaceholder parent (.of name identity size mtime directory) b.facility = _ :=
    Facility.create_ok.2 ⟨h, htakes, (Bool.and_eq_true_iff.1 hfits).1, hnone, rfl⟩
  simp only [create, hname, hfits, Bool.and_self, if_true, ask, hcall]
  rfl

theorem create_taken (htakes : b.facility.Takes parent) {p : Placeholder}
    (hp : b.facility.placeholder? (parent.join name) = some p) (mtime : Int) (directory : Bool) :
    create parent name identity size mtime directory b =
      (.error (.alreadyExists (parent.join name) .alreadyExists), b) := by
  have hcall : CloudFacility.createPlaceholder parent (.of name identity size mtime directory) b.facility = _ :=
    Facility.create_taken h htakes (Bool.and_eq_true_iff.1 hfits).1 hp
  simp only [create, hname, hfits, Bool.and_self, if_true, ask, hcall]
  rfl

theorem create_orphan (horphan : ¬b.facility.Takes parent) (mtime : Int) (directory : Bool) :
    create parent name identity size mtime directory b =
      (.error (.notFound (parent.join name) (b.facility.orphanStatus parent)), b) := by
  have hcall : CloudFacility.createPlaceholder parent (.of name identity size mtime directory) b.facility = _ :=
    Facility.create_orphan h horphan (.of name identity size mtime directory)
  simp only [create, hname, hfits, Bool.and_self, if_true, ask, hcall, Facility.orphanStatus]
  split <;> rfl

end Creating

theorem update_standing (h : b.facility.faults .update = none) (hfits : fitsFacility identity size = true) {p : Placeholder}
    (hp : b.facility.placeholder? path = some p) (mtime : Int) :
    update path identity size mtime b = (.ok (), b.put path (p.update (.amendment size mtime) identity)) := by
  have hcall : CloudFacility.updatePlaceholder path (.amendment size mtime) identity b.facility = _ :=
    Facility.update_ok.2 ⟨h, p, hp, rfl⟩
  simp only [update, hfits, if_true, ask, hcall]
  rfl

theorem update_missing (h : b.facility.faults .update = none) (hfits : fitsFacility identity size = true)
    (hnone : b.facility.placeholder? path = none) (mtime : Int) :
    update path identity size mtime b = (.error (.notFound path .fileNotFound), b) := by
  have hcall : CloudFacility.updatePlaceholder path (.amendment size mtime) identity b.facility = _ :=
    Facility.update_missing h hnone (.amendment size mtime) identity
  simp only [update, hfits, if_true, ask, hcall]
  rfl

end Bridge

end OnDemand
