import OnDemand.Proofs.Reconcile.Convergence

/-!
# What a success says

An errand that succeeds leaves a placeholder at the place of its entry, and that of a file says what the entry says. But what
stood there before keeps its kind: whether it is a directory is never compared with the entry.
-/

namespace OnDemand

/-- No directory has a size. -/
def Facility.DirectoriesSizeless (f : Facility) : Prop :=
  ∀ path p, f.placeholder? path = some p → p.isDirectory = true → p.metadata.size = 0

namespace Reconcile

variable {root : Path} {b : Bridge Facility} {x : Errand} {old : Option Placeholder}

/-- A new directory has no size, and one that stands is left alone if it is to be added. An update gives it the size of
the entry. -/
theorem sizeless_leaves_iff (hold : ∀ p, old = some p → p.isDirectory = true → p.metadata.size = 0) :
    ((x.leaves root old).isDirectory = true → (x.leaves root old).metadata.size = 0) ↔
      ∀ p, old = some p → p.isDirectory = true → x.entry.size = 0 ∨ (x.isNew = true ∧ x.entry.directory = true) := by
  cases old with
  | none =>
    have hsize : (fresh root x.entry).metadata.size = if x.entry.directory = true then 0 else (x.entry.size : Int) := rfl
    refine iff_of_true (fun hdirectory => ?_) fun p hp => nomatch hp
    rw [Errand.leaves, isDirectory_fresh] at hdirectory
    rw [Errand.leaves, hsize, if_pos hdirectory]
  | some p =>
    simp only [Option.some.injEq, forall_eq'] at hold ⊢
    by_cases hstays : x.isNew = true ∧ x.entry.directory = true
    · have hleaves : x.leaves root (some p) = p := if_pos (Bool.and_eq_true_iff.2 hstays)
      rw [hleaves]
      exact iff_of_true hold fun _ => .inr hstays
    · have hleaves : x.leaves root (some p) = renewed x.entry p := if_neg (mt Bool.and_eq_true_iff.1 hstays)
      have hsize : (renewed x.entry p).metadata.size = x.entry.size := rfl
      rw [hleaves, isDirectory_renewed, hsize, Int.natCast_eq_zero]
      simp only [hstays, or_false]

/-- After an errand that succeeded a placeholder stands at the place of the entry, and that of a file says what the entry
says. It has the kind of what stood there before, so it is that of the entry unless a placeholder of the other kind stood
there; and directories stay without a size unless the entry has one and an update writes it to a directory. -/
theorem placed_shows_iff (hcalm : b.facility.Calm) (hmtime : x.entry.mtime ≠ -Filetime.epochDelta)
    (hok : (x.place root b).1.isOk = true) :
    let old := b.facility.placeholder? (x.entry.pathIn root)
    let f := (x.place root b).2.facility
    (∃ p, f.placeholder? (x.entry.pathIn root) = some p ∧
      p.isDirectory = (old.map Placeholder.isDirectory).getD x.entry.directory ∧
      (x.entry.directory = false → p.Mirrors x.entry)) ∧
    (f.Shown root x.entry ↔ ∀ p, old = some p → p.isDirectory = x.entry.directory) ∧
    (b.facility.DirectoriesSizeless → (f.DirectoriesSizeless ↔ ∀ p, old = some p → p.isDirectory = true →
      x.entry.size = 0 ∨ (x.isNew = true ∧ x.entry.directory = true))) := by
  intro old f
  have hplaced : f = (b.put (x.entry.pathIn root) (x.leaves root old)).facility :=
    congrArg Bridge.facility (place_ok hcalm hok)
  have hthere : f.placeholder? (x.entry.pathIn root) = some (x.leaves root old) := by
    rw [hplaced]
    exact Table.get?_insert_self
  have hkind := isDirectory_leaves root x old
  refine ⟨⟨_, hthere, hkind, mirrors_leaves old⟩, ?_, fun hsizeless => ?_⟩
  · have hshown : f.Shown root x.entry ↔ (x.leaves root old).isDirectory = x.entry.directory := by
      constructor
      · rintro ⟨p, hp, hshows⟩
        rw [← Option.some.inj (hp.symm.trans hthere)]
        exact hshows.kind
      · intro hsame
        refine ⟨_, hthere, ?_⟩
        cases hdirectory : x.entry.directory with
        | true => exact Placeholder.shows_directory (hsame.trans hdirectory) hdirectory
        | false => exact (mirrors_leaves old hdirectory).shows hsame hmtime
    rw [hshown, hkind]
    cases old <;> simp
  · have hone : f.DirectoriesSizeless ↔
        ((x.leaves root old).isDirectory = true → (x.leaves root old).metadata.size = 0) := by
      constructor
      · exact fun h => h _ _ hthere
      · intro h path p hp
        rw [hplaced] at hp
        rcases Table.get?_insert_cases hp with ⟨-, rfl⟩ | ⟨-, hp⟩
        · exact h
        · exact hsizeless path p hp
    rw [hone, sizeless_leaves_iff fun p => hsizeless _ p]

/-- A file that is added again with other contents. -/
theorem placed_shows_iff_rewritten :
    let b := (run ⟨"/s"⟩ (Catalog.empty.diff (.ofList [⟨"a", "o", 1, 1, false⟩])) oneRoot).2
    let x : Errand := ⟨⟨"a", "v2", 3, 5, false⟩, true⟩
    b.facility.Calm ∧ x.entry.mtime ≠ -Filetime.epochDelta ∧ (x.place ⟨"/s"⟩ b).1.isOk = true ∧
      (b.facility.placeholder? ⟨"/s/a"⟩).isSome = true ∧ (x.place ⟨"/s"⟩ b).2.facility.Shown ⟨"/s"⟩ x.entry := by
  intro b x
  have hcalm : b.facility.Calm := ⟨by decide +kernel, by decide +kernel⟩
  have hmtime : x.entry.mtime ≠ -Filetime.epochDelta := by decide
  have hok : (x.place ⟨"/s"⟩ b).1.isOk = true := by decide +kernel
  obtain ⟨-, hshown, -⟩ := placed_shows_iff hcalm hmtime hok
  exact ⟨hcalm, hmtime, hok, by decide +kernel, hshown.2 (by decide +kernel)⟩

/-- A directory is said to be placed where a file stands and stays one, and a file is written over a directory, which
then has a size. -/
theorem placed_over_other_kind :
    let file := (run ⟨"/s"⟩ (Catalog.empty.diff (.ofList [⟨"a", "o", 1, 1, false⟩])) oneRoot).2
    let directory := (run ⟨"/s"⟩ (Catalog.empty.diff (.ofList [⟨"a/b", "o", 1, 1, false⟩])) oneRoot).2
    let stays := placeAdded ⟨"/s"⟩ ⟨"a", "a/", 0, 1, true⟩ file
    let sized := placeAdded ⟨"/s"⟩ ⟨"a", "o", 5, 1, false⟩ directory
    stays.1 = .ok .updated ∧ (stays.2.facility.placeholder? ⟨"/s/a"⟩).map (·.isDirectory) = some false ∧
      sized.1 = .ok .updated ∧
      (sized.2.facility.placeholder? ⟨"/s/a"⟩).map (fun p => (p.isDirectory, p.metadata.size)) = some (true, 5) := by
  decide +kernel

end Reconcile

end OnDemand
