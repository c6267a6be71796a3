import OnDemand.Proofs.Catalog.Contents
import OnDemand.Reconcile

/-!
# The attempts of a run

A run does one errand for every added entry and then one for every changed entry. Its tally counts how the attempts
came out.
-/

namespace OnDemand

theorem Tally.failed_count {ε : Type} (t : Tally) (outcome : Except ε Placed) :
    (t.count outcome).failed = t.failed + if outcome.isOk then 0 else 1 := by
  cases outcome with
  | error e => rfl
  | ok placed => cases placed <;> rfl

/-- How many attempts are counted. -/
def Tally.attempted (t : Tally) : Nat := t.created + t.updated + t.failed

theorem Tally.attempted_count {ε : Type} (t : Tally) (outcome : Except ε Placed) :
    (t.count outcome).attempted = t.attempted + 1 := by
  cases outcome with
  | error e => rfl
  | ok placed => cases placed <;> simp only [count, attempted] <;> omega

namespace Reconcile

variable {σ : Type} [CloudFacility σ] {root : Path} {b : Bridge σ} {xs ys : List Errand}

/-! ## Placing one entry -/

theorem placeAdded_eq (root : Path) (e : Entry) (b : Bridge σ) :
    placeAdded root e b =
      match Bridge.create (e.parentIn root) e.name (.ofText e.object) e.size e.mtime e.directory b with
      | (.ok (), b) => (.ok .created, b)
      | (.error (.alreadyExists _ _), b) =>
        if e.directory then (.ok .updated, b)
        else match Bridge.update (e.pathIn root) (.ofText e.object) e.size e.mtime b with
          | (.ok (), b) => (.ok .updated, b)
          | (.error failure, b) => (.error failure, b)
      | (.error failure, b) => (.error failure, b) := by
  delta placeAdded
  rfl

theorem placeChanged_eq (root : Path) (e : Entry) (b : Bridge σ) :
    placeChanged root e b =
      match Bridge.update (e.pathIn root) (.ofText e.object) e.size e.mtime b with
      | (.ok (), b) => (.ok .updated, b)
      | (.error (.notFound _ _), b) => placeAdded root e b
      | (.error failure, b) => (.error failure, b) := by
  delta placeChanged
  rfl

theorem placeAdded_refused {e : Entry}
    (h : ¬(Bridge.isValidName e.name = true ∧ Bridge.fitsFacility (.ofText e.object) e.size = true)) :
    placeAdded root e b = (.error (.metadataRejected (e.pathIn root) .invalidArgument), b) := by
  rw [placeAdded_eq, Bridge.create_refused h]
  rfl

/-! ## Errands -/

/-- An entry to be placed: as a new one, or as one that has changed. -/
structure Errand where
  entry : Entry
  isNew : Bool
deriving DecidableEq, Repr

def Errand.place (root : Path) (x : Errand) : Bridge.Act σ PlaceholderError Placed :=
  if x.isNew then placeAdded root x.entry else placeChanged root x.entry

theorem place_new (root : Path) (e : Entry) : Errand.place (σ := σ) root ⟨e, true⟩ = placeAdded root e := by
  rw [Errand.place, if_pos rfl]

theorem place_changed (root : Path) (e : Entry) : Errand.place (σ := σ) root ⟨e, false⟩ = placeChanged root e := by
  rw [Errand.place, if_neg Bool.false_ne_true]

/-- The errands of a difference, in the order in which they are done. -/
def errands (d : Catalog.Diff) : List Errand := d.added.map (⟨·, true⟩) ++ d.changed.map (⟨·, false⟩)

theorem mem_errands {d : Catalog.Diff} {x : Errand} :
    x ∈ errands d ↔ (x.isNew = true ∧ x.entry ∈ d.added) ∨ (x.isNew = false ∧ x.entry ∈ d.changed) := by
  obtain ⟨e, isNew⟩ := x
  rw [errands, List.mem_append, List.mem_map, List.mem_map]
  cases isNew <;> simp

theorem length_errands (d : Catalog.Diff) : (errands d).length = d.added.length + d.changed.length := by
  rw [errands, List.length_append, List.length_map, List.length_map]

/-- The errands of a difference are for entries of the newer catalog. -/
theorem entry_mem_of_mem_errands {older newer : Catalog} {x : Errand} (h : x ∈ errands (older.diff newer)) :
    x.entry ∈ newer.toList := by
  rcases mem_errands.1 h with ⟨-, hadded⟩ | ⟨-, hchanged⟩
  · exact (Catalog.mem_added.1 hadded).1
  · exact (Catalog.mem_changed.1 hchanged).1

/-- An errand that was done: the bridge before, what came of it, and the bridge after. -/
structure Attempt (σ : Type) where
  errand : Errand
  before : Bridge σ
  outcome : Except PlaceholderError Placed
  after : Bridge σ

def Errand.attempt (root : Path) (x : Errand) (b : Bridge σ) : Attempt σ := ⟨x, b, (x.place root b).1, (x.place root b).2⟩

theorem outcome_attempt (root : Path) (x : Errand) (b : Bridge σ) : (x.attempt root b).outcome = (x.place root b).1 := rfl

/-- The attempts at `xs`, each from where the one before it has led. -/
def attempts (root : Path) : List Errand → Bridge σ → List (Attempt σ)
  | [], _ => []
  | x :: xs, b => x.attempt root b :: attempts root xs (x.place root b).2

/-- The bridge after the attempts at `xs`. -/
def carryOut (root : Path) (xs : List Errand) (b : Bridge σ) : Bridge σ := xs.foldl (fun b x => (x.place root b).2) b

theorem attempts_nil : attempts root [] b = [] := rfl

theorem attempts_cons {x : Errand} :
    attempts root (x :: xs) b = x.attempt root b :: attempts root xs (x.place root b).2 := rfl

theorem carryOut_cons {x : Errand} : carryOut root (x :: xs) b = carryOut root xs (x.place root b).2 := rfl

theorem attempts_append : attempts root (xs ++ ys) b = attempts root xs b ++ attempts root ys (carryOut root xs b) := by
  induction xs generalizing b with
  | nil => rfl
  | cons x xs ih => exact congrArg (x.attempt root b :: ·) ih

theorem carryOut_append : carryOut root (xs ++ ys) b = carryOut root ys (carryOut root xs b) := List.foldl_append

theorem map_errand_attempts (root : Path) (xs : List Errand) (b : Bridge σ) : (attempts root xs b).map (·.errand) = xs := by
  induction xs generalizing b with
  | nil => rfl
  | cons x xs ih => exact congrArg (x :: ·) (ih _)

theorem length_attempts (root : Path) (xs : List Errand) (b : Bridge σ) : (attempts root xs b).length = xs.length := by
  rw [← List.length_map (·.errand), map_errand_attempts]

/-- An attempt is its errand, done on the bridge that it found. -/
theorem eq_attempt_of_mem {a : Attempt σ} (h : a ∈ attempts root xs b) :
    a.errand ∈ xs ∧ a = a.errand.attempt root a.before := by
  induction xs generalizing b with
  | nil => cases h
  | cons x xs ih =>
    rcases List.mem_cons.1 h with rfl | h
    · exact ⟨List.mem_cons_self, rfl⟩
    · exact ⟨List.mem_cons_of_mem x (ih h).1, (ih h).2⟩

/-- Every errand is attempted. -/
theorem exists_attempt_of_mem (root : Path) (b : Bridge σ) {x : Errand} (h : x ∈ xs) : ∃ a ∈ attempts root xs b, a.errand = x := by
  rw [← map_errand_attempts root xs b] at h
  exact List.mem_map.1 h

/-- The counts after some attempts. -/
def tally (start : Tally) (l : List (Attempt σ)) : Tally := l.foldl (fun t a => t.count a.outcome) start

omit [CloudFacility σ] in
theorem tally_cons (start : Tally) (a : Attempt σ) (l : List (Attempt σ)) :
    tally start (a :: l) = tally (start.count a.outcome) l := rfl

omit [CloudFacility σ] in
theorem failed_tally (start : Tally) (l : List (Attempt σ)) :
    (tally start l).failed = start.failed + l.countP fun a => !a.outcome.isOk := by
  induction l generalizing start with
  | nil => rfl
  | cons a l ih =>
    rw [tally_cons, ih, Tally.failed_count, List.countP_cons]
    cases a.outcome.isOk with
    | true => simp
    | false =>
      simp
      omega

omit [CloudFacility σ] in
/-- Every attempt is counted once. -/
theorem attempted_tally (start : Tally) (l : List (Attempt σ)) : (tally start l).attempted = start.attempted + l.length := by
  induction l generalizing start with
  | nil => rfl
  | cons a l ih =>
    rw [tally_cons, ih, Tally.attempted_count, List.length_cons, Nat.add_assoc, Nat.add_comm 1]

theorem placeEach_eq {place : Entry → Bridge.Act σ PlaceholderError Placed} {errand : Entry → Errand}
    (h : ∀ e, place e = (errand e).place root) (entries : List Entry) (t : Tally) (b : Bridge σ) :
    placeEach place entries (t, b) =
      (tally t (attempts root (entries.map errand) b), carryOut root (entries.map errand) b) := by
  induction entries generalizing t b with
  | nil => rfl
  | cons e entries ih =>
    have hfirst : placeEach place (e :: entries) (t, b) =
        placeEach place entries (t.count (place e b).1, (place e b).2) := rfl
    rw [hfirst, ih, h]
    rfl

theorem run_eq (root : Path) (d : Catalog.Diff) (b : Bridge σ) :
    run root d b = ({ tally .zero (attempts root (errands d) b) with removedRemotely := d.removed.length },
      carryOut root (errands d) b) := by
  have htally : ∀ l m : List (Attempt σ), tally (tally .zero l) m = tally .zero (l ++ m) := fun _ _ =>
    List.foldl_append.symm
  rw [run, placeEach_eq fun e => (place_new root e).symm, placeEach_eq fun e => (place_changed root e).symm, htally, ← attempts_append, ← carryOut_append]
  rfl

theorem failed_run (root : Path) (d : Catalog.Diff) (b : Bridge σ) :
    (run root d b).1.failed = (attempts root (errands d) b).countP fun a => !a.outcome.isOk := by
  rw [run_eq]
  exact (failed_tally _ _).trans (Nat.zero_add _)

/-- Nothing failed exactly if every attempt was answered with success. -/
theorem failed_run_eq_zero {d : Catalog.Diff} :
    (run root d b).1.failed = 0 ↔ ∀ a ∈ attempts root (errands d) b, a.outcome.isOk = true := by
  rw [failed_run, List.countP_eq_zero]
  simp only [Bool.not_eq_true', Bool.not_eq_false]

/-! ## What a run makes of the bridge -/

/-- `R` relates a bridge to what creations and updates of placeholders make of it, one after the other. -/
structure Composes (R : Bridge σ → Bridge σ → Prop) : Prop where
  refl : ∀ b, R b b
  trans : ∀ {b b' b''}, R b b' → R b' b'' → R b b''
  create : ∀ parent name identity size mtime directory b,
    R b (Bridge.create parent name identity size mtime directory b).2
  update : ∀ path identity size mtime b, R b (Bridge.update path identity size mtime b).2

variable {R : Bridge σ → Bridge σ → Prop}

theorem Composes.placeAdded (hR : Composes R) (root : Path) (e : Entry) (b : Bridge σ) :
    R b (Reconcile.placeAdded root e b).2 := by
  have hcreate := hR.create (e.parentIn root) e.name (.ofText e.object) e.size e.mtime e.directory b
  rw [placeAdded_eq]
  -- Only an entry that is there already, and is a file, is updated after the attempt to create it.
  split
  · rename_i b' h
    rwa [h] at hcreate
  · rename_i path status b' h
    rw [h] at hcreate
    split
    · exact hcreate
    · have hupdate := hR.update (e.pathIn root) (.ofText e.object) e.size e.mtime b'
      split <;> rename_i h' <;> rw [h'] at hupdate <;> exact hR.trans hcreate hupdate
  · rename_i failure b' hfailure h
    rwa [h] at hcreate

theorem Composes.placeChanged (hR : Composes R) (root : Path) (e : Entry) (b : Bridge σ) :
    R b (Reconcile.placeChanged root e b).2 := by
  have hupdate := hR.update (e.pathIn root) (.ofText e.object) e.size e.mtime b
  rw [placeChanged_eq]
  split
  · rename_i b' h
    rwa [h] at hupdate
  · rename_i path status b' h
    rw [h] at hupdate
    exact hR.trans hupdate (hR.placeAdded root e b')
  · rename_i failure b' hfailure h
    rwa [h] at hupdate

theorem Composes.run (hR : Composes R) (root : Path) (d : Catalog.Diff) (b : Bridge σ) : R b (Reconcile.run root d b).2 := by
  rw [run_eq]
  induction errands d generalizing b with
  | nil => exact hR.refl b
  | cons x xs ih =>
    refine hR.trans ?_ (ih (x.place root b).2)
    unfold Errand.place
    split
    · exact hR.placeAdded root x.entry b
    · exact hR.placeChanged root x.entry b

end Reconcile

end OnDemand
