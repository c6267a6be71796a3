import OnDemand.Proofs.Facility.Frame
import OnDemand.Proofs.Reconcile.Placing

/-!
# What a run leaves alone

Whatever is in a difference and whatever the facility refuses: a run creates as many placeholders as it counts, rewrites
those at the places of its entries, and leaves everything else as it was.
-/

namespace OnDemand

/-- `q` is `p`, except perhaps for its identity, its size, its times of writing and of change, and that it is in sync. -/
structure Placeholder.Continues (p q : Placeholder) : Prop where
  path : q.path = p.path
  kind : q.isDirectory = p.isDirectory
  attributes : q.metadata.attributes = p.metadata.attributes
  created : q.metadata.created = p.metadata.created
  accessed : q.metadata.accessed = p.metadata.accessed
  content : q.content = p.content
  inUse : q.inUse = p.inUse
  onDemandPopulation : q.onDemandPopulation = p.onDemandPopulation

namespace Placeholder.Continues

variable {p q r : Placeholder}

theorem refl (p : Placeholder) : p.Continues p := ⟨rfl, rfl, rfl, rfl, rfl, rfl, rfl, rfl⟩

theorem trans (h : p.Continues q) (h' : q.Continues r) : p.Continues r where
  path := h'.path.trans h.path
  kind := h'.kind.trans h.kind
  attributes := h'.attributes.trans h.attributes
  created := h'.created.trans h.created
  accessed := h'.accessed.trans h.accessed
  content := h'.content.trans h.content
  inUse := h'.inUse.trans h.inUse
  onDemandPopulation := h'.onDemandPopulation.trans h.onDemandPopulation

/-- An update by size and time only continues a placeholder. -/
theorem update (p : Placeholder) (size mtime : Int) (identity : FileIdentity) :
    p.Continues (p.update (.amendment size mtime) identity) :=
  ⟨rfl, rfl, rfl, rfl, rfl, rfl, rfl, rfl⟩

end Placeholder.Continues

namespace Reconcile

variable {t t' : Table Route Placeholder} {root : Path} {e : Entry} {outcome : Except PlaceholderError Placed} {ρ : Route}
  {p : Placeholder} {xs : List Errand}

/-! ## One errand -/

theorem Placing.continues (h : Placing t root e outcome t') (hp : t.get? ρ = some p) :
    ∃ q, t'.get? ρ = some q ∧ p.Continues q := by
  by_cases hρ : ρ = (e.pathIn root).route
  · rw [hρ] at hp ⊢
    cases h with
    | failed failure => exact ⟨p, hp, .refl p⟩
    | stood hdirectory => exact ⟨p, hp, .refl p⟩
    | created hnone =>
      rw [hnone] at hp
      cases hp
    | updated q hq =>
      obtain rfl := Option.some.inj (hq.symm.trans hp)
      exact ⟨_, Table.get?_insert_self, .update ..⟩
  · exact ⟨p, (h.get?_of_ne hρ).trans hp, .refl p⟩

/-- The table grows by what a tally counts as created. -/
theorem Placing.size (h : Placing t root e outcome t') (s : Tally) : t'.size + s.created = t.size + (s.count outcome).created := by
  cases h with
  | failed failure => rfl
  | stood hdirectory => rfl
  | created hnone =>
    rw [Table.size_insert_of_get?_none hnone]
    exact Nat.add_right_comm t.size 1 s.created
  | updated p hp =>
    rw [Table.size_insert_of_get?_some hp]
    rfl

/-! ## A list of errands -/

section Kept

variable {σ : Type} [CloudFacility σ] {table : σ → Table Route Placeholder} (h : CloudFacility.Keeps table)

include h

theorem carryOut_continues {b : Bridge σ} (hp : (table b.facility).get? ρ = some p) :
    ∃ q, (table (carryOut root xs b).facility).get? ρ = some q ∧ p.Continues q := by
  induction xs generalizing b p with
  | nil => exact ⟨p, hp, .refl p⟩
  | cons x xs ih =>
    obtain ⟨q, hq, hcontinues⟩ := (placing_place h root x b).continues hp
    obtain ⟨r, hr, hcontinues'⟩ := ih hq
    exact ⟨r, hr, hcontinues.trans hcontinues'⟩

theorem size_carryOut (b : Bridge σ) (s : Tally) :
    (table (carryOut root xs b).facility).size + s.created = (table b.facility).size + (tally s (attempts root xs b)).created := by
  induction xs generalizing b s with
  | nil => rfl
  | cons x xs ih =>
    have hfirst := (placing_place h root x b).size s
    have hrest := ih (x.place root b).2 (s.count (x.place root b).1)
    rw [carryOut_cons, attempts_cons, tally_cons, outcome_attempt]
    omega

end Kept

/-- A run leaves the live table alone, and everything in the facility but the placeholders and the planned refusals. -/
theorem composes_alikeBeside :
    Composes fun b b' : Bridge Facility => b'.live = b.live ∧ b.facility.AlikeBeside b'.facility where
  refl b := ⟨rfl, .refl b.facility⟩
  trans h h' := ⟨h'.1.trans h.1, h.2.trans h'.2⟩
  create parent name identity size mtime directory b := by
    simp only [Bridge.create]
    split
    · exact ⟨rfl, Facility.alikeBeside_create ..⟩
    · exact ⟨rfl, .refl b.facility⟩
  update path identity size mtime b := by
    simp only [Bridge.update]
    split
    · exact ⟨rfl, Facility.alikeBeside_update ..⟩
    · exact ⟨rfl, .refl b.facility⟩

/-! ## The whole run -/

/-- No placeholder goes, and those that were there keep all but identity, size, times of writing and change, and that they
are in sync; as many are new as are counted as created; every entry is counted once, and every removal; what stands at no
place of an entry is as it was; and so is everything beside the placeholders and the planned refusals. -/
theorem run_footprint (root : Path) (d : Catalog.Diff) (b : Bridge Facility) :
    let report := (run root d b).1
    let b' := (run root d b).2
    (∀ ρ p, b.facility.placeholders.get? ρ = some p →
      ∃ q, b'.facility.placeholders.get? ρ = some q ∧ p.Continues q) ∧
    b'.facility.placeholders.size = b.facility.placeholders.size + report.created ∧
    report.created + report.updated + report.failed = d.added.length + d.changed.length ∧
    report.removedRemotely = d.removed.length ∧
    (∀ ρ, (∀ e ∈ d.added ++ d.changed, ρ ≠ (e.pathIn root).route) →
      b'.facility.placeholders.get? ρ = b.facility.placeholders.get? ρ) ∧
    b'.live = b.live ∧ ∃ placeholders faults, b'.facility = { b.facility with placeholders, faults } := by
  have hbeside := composes_alikeBeside.run root d b
  have hsize : (carryOut root (errands d) b).facility.placeholders.size =
      b.facility.placeholders.size + (tally .zero (attempts root (errands d) b)).created :=
    size_carryOut Facility.keeps b .zero
  have htotal := attempted_tally .zero (attempts root (errands d) b)
  rw [length_attempts, length_errands] at htotal
  rw [run_eq] at hbeside ⊢
  refine ⟨fun ρ p => carryOut_continues Facility.keeps, hsize, htotal.trans (Nat.zero_add _), rfl, fun ρ hρ => ?_, hbeside⟩
  refine get?_carryOut_of_ne Facility.keeps fun x hx => hρ x.entry ?_
  rcases mem_errands.1 hx with ⟨-, hadded⟩ | ⟨-, hchanged⟩
  · exact List.mem_append_left _ hadded
  · exact List.mem_append_right _ hchanged

/-- A directory that a planned refusal passes off as present, and a file that two paths name. -/
theorem run_footprint_steered :
    let start : Bridge Facility := .ofFacility (Facility.register ⟨"/s"⟩ (.new "name" "1") .empty).2
    let old := (placeAdded ⟨"/s"⟩ ⟨"a", "o", 1, 1, false⟩ start).2
    let b := { old with facility := old.facility.planFault .create .alreadyExists }
    let d : Catalog.Diff := ⟨[⟨"d", "d/", 0, 1, true⟩], [⟨"a", "p", 2, 2, false⟩, ⟨"./a", "q", 3, 3, false⟩], ["gone"]⟩
    let b' := (run ⟨"/s"⟩ d b).2
    (run ⟨"/s"⟩ d b).1 = ⟨0, 3, 0, 1⟩ ∧ b'.facility.placeholders.size = b.facility.placeholders.size ∧
      ∃ p q, b.facility.placeholder? ⟨"/s/a"⟩ = some p ∧ b'.facility.placeholder? ⟨"/s/a"⟩ = some q ∧ p ≠ q ∧
        p.Continues q := by
  intro start old b d b'
  have hreport : (run ⟨"/s"⟩ d b).1 = ⟨0, 3, 0, 1⟩ := by decide +kernel
  obtain ⟨hcontinues, hsize, -⟩ := run_footprint ⟨"/s"⟩ d b
  obtain ⟨p, hp⟩ : ∃ p, b.facility.placeholder? ⟨"/s/a"⟩ = some p := Option.isSome_iff_exists.1 (by decide +kernel)
  obtain ⟨q, hq, hpq⟩ := hcontinues _ p hp
  refine ⟨hreport, by rw [hsize, hreport]; rfl, p, q, hp, hq, ?_, hpq⟩
  rintro rfl
  have hchanged : b.facility.placeholder? ⟨"/s/a"⟩ ≠ b'.facility.placeholder? ⟨"/s/a"⟩ := by decide +kernel
  exact hchanged (hp.trans hq.symm)

end Reconcile

end OnDemand
