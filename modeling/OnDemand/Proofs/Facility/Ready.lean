import OnDemand.Proofs.Facility.Calm

/-!
# A root that stands alone

Below a registered root that lies neither below nor above another one, and without planned refusals, a placeholder is
created wherever its parent is there and it is not, and updated wherever it is.
-/

namespace OnDemand

namespace Facility

variable {f : Facility} {root path parent : Path}

/-- `root` is registered, and no other registered root lies below or above it. -/
structure StandsAlone (root : Path) (f : Facility) : Prop where
  registered : ∃ r ∈ f.registrations.values, r.path.same root = true
  apart : ∀ r ∈ f.registrations.values, r.path.startsWith root = true ∨ root.startsWith r.path = true →
    r.path.same root = true

/-- `root` stands alone, and no refusal is planned. -/
structure Ready (root : Path) (f : Facility) : Prop extends StandsAlone root f where
  calm : ∀ op, f.faults op = none

theorem Ready.withPlaceholders (h : Ready root f) (t : Table Route Placeholder) :
    Ready root { f with placeholders := t } := ⟨⟨h.registered, h.apart⟩, h.calm⟩

/-- The root that covers a path below `root` is `root`. -/
theorem StandsAlone.covers (h : StandsAlone root f) (hbelow : root.route <+: path.route) :
    ∃ r, f.coveringRoot? path = some r ∧ r.path.same root = true := by
  obtain ⟨r, hr, hsame⟩ := h.registered
  have hroute : r.path.route = root.route := by simpa [Path.same] using hsame
  have hcovers : path.startsWith r.path = true := Path.startsWith_iff.2 (by rw [hroute]; exact hbelow)
  unfold coveringRoot?
  cases hfind : f.registrations.values.find? fun r => path.startsWith r.path with
  | none => exact absurd hcovers (List.find?_eq_none.1 hfind r hr)
  | some r' =>
    have hstarts := List.find?_some hfind
    -- Both are beginnings of one route, so one of them begins the other.
    have hnested : root.route <+: r'.path.route ∨ r'.path.route <+: root.route :=
      List.prefix_or_prefix_of_prefix hbelow (Path.startsWith_iff.1 hstarts)
    exact ⟨r', rfl, h.apart r' (List.mem_of_find?_eq_some hfind)
      (hnested.imp Path.startsWith_iff.2 Path.startsWith_iff.2)⟩

/-- A placeholder can be made in `parent`: it is the root itself, or there is a directory at its place. -/
def Holds (root parent : Path) (f : Facility) : Prop :=
  parent.route = root.route ∨ ∃ p, f.placeholder? parent = some p ∧ p.isDirectory = true

theorem StandsAlone.takes_iff (h : StandsAlone root f) (hbelow : root.route <+: parent.route) :
    f.Takes parent ↔ f.Holds root parent := by
  obtain ⟨r, hr, hsame⟩ := h.covers hbelow
  have hholds : f.holdsChildren r parent = true ↔ f.Holds root parent := by
    rw [holdsChildren, Bool.or_eq_true, Option.any_eq_true, Holds]
    simp only [Path.same, beq_iff_eq] at hsame ⊢
    rw [hsame, eq_comm]
  rw [← hholds, Takes, hr]
  simp only [Option.some.injEq, exists_eq_left']

theorem StandsAlone.orphanStatus_eq (h : StandsAlone root f) (hbelow : root.route <+: parent.route) :
    f.orphanStatus parent = .pathNotFound := by
  obtain ⟨r, hr, -⟩ := h.covers hbelow
  rw [orphanStatus, hr]
  rfl

end Facility

end OnDemand
