import OnDemand.Proofs.Catalog.Regular
import OnDemand.Proofs.Reconcile.Placing
import OnDemand.Service
import OnDemand.Store.Memory

/-!
# Cycles of a service

A root is populated once and its index is loaded again and again, while any call on the facility can be refused. An
entry is attempted in a cycle whose catalog adds or changes it, whatever came of the attempts before. A file whose latest
attempt has succeeded has its placeholder; one whose latest attempt was refused is left until the catalog changes it.
-/

namespace OnDemand

namespace Reconcile

/-! ## The latest attempt -/

section Latest

variable {σ : Type} {path : String} {a : Attempt σ} {l : List (Attempt σ)}

/-- The latest attempt at the entry at `path`. -/
def latest? (l : List (Attempt σ)) (path : String) : Option (Attempt σ) :=
  (l.filter (·.errand.entry.path = path)).getLast?

theorem latest?_append (l m : List (Attempt σ)) : latest? (l ++ m) path = (latest? m path).or (latest? l path) := by
  rw [latest?, List.filter_append, List.getLast?_append]
  rfl

theorem latest?_eq_none : latest? l path = none ↔ ∀ a ∈ l, a.errand.entry.path ≠ path := by
  simp only [latest?, List.getLast?_eq_none_iff, List.filter_eq_nil_iff, decide_eq_true_eq, ne_eq]

theorem mem_of_latest? (h : latest? l path = some a) : a ∈ l ∧ a.errand.entry.path = path := by
  obtain ⟨ha, hpath⟩ := List.mem_filter.1 (List.mem_of_getLast? h)
  exact ⟨ha, of_decide_eq_true hpath⟩

end Latest

variable {σ : Type} [CloudFacility σ] {table : σ → Table Route Placeholder} {root : Path} {b : Bridge σ} {e : Entry}
  {xs : List Errand} {a : Attempt σ}

/-- The placeholder of a file stays as it is when errands are done for other paths. -/
theorem get?_carryOut_of_path_ne (h : CloudFacility.Keeps table) (hplain : ∀ x ∈ xs, Entry.IsPlain x.entry.path)
    (he : Entry.IsPlain e.path) (hne : ∀ x ∈ xs, x.entry.path ≠ e.path) :
    (table (carryOut root xs b).facility).get? (e.pathIn root).route =
      (table b.facility).get? (e.pathIn root).route := by
  refine get?_carryOut_of_ne h fun x hx hroute => hne x hx ?_
  exact (Entry.route_pathIn_inj root (hplain x hx) he).1 hroute.symm

/-- If the latest attempt at a file has succeeded, its placeholder is what the file says. -/
theorem mirrors_of_latest? (h : CloudFacility.Keeps table) (hplain : ∀ x ∈ xs, Entry.IsPlain x.entry.path)
    (hfile : e.directory = false) (hone : ∀ x ∈ xs, x.entry.path = e.path → x.entry = e)
    (hlatest : latest? (attempts root xs b) e.path = some a) (hok : a.outcome.isOk = true) :
    ∃ p, (table (carryOut root xs b).facility).get? (e.pathIn root).route = some p ∧ p.Mirrors e := by
  induction xs generalizing b with
  | nil => cases hlatest
  | cons x xs ih =>
    rw [carryOut_cons]
    have hplain' := fun y hy => hplain y (List.mem_cons_of_mem x hy)
    rw [attempts_cons, ← List.singleton_append, latest?_append] at hlatest
    cases hrest : latest? (attempts root xs (x.place root b).2) e.path with
    | some a' =>
      rw [hrest] at hlatest
      obtain rfl : a' = a := Option.some.inj hlatest
      exact ih hplain' (fun y hy => hone y (List.mem_cons_of_mem x hy)) hrest
    | none =>
      rw [hrest, Option.none_or] at hlatest
      obtain ⟨ha, hpath⟩ := mem_of_latest? hlatest
      obtain rfl := List.mem_singleton.1 ha
      obtain rfl : x.entry = e := hone x List.mem_cons_self hpath
      have hothers : ∀ y ∈ xs, y.entry.path ≠ x.entry.path := by
        intro y hy
        obtain ⟨a, ha, rfl⟩ := exists_attempt_of_mem root (x.place root b).2 hy
        exact latest?_eq_none.1 hrest a ha
      rw [get?_carryOut_of_path_ne h hplain' (hplain x List.mem_cons_self) hothers]
      exact (placing_place h root x b).mirrors hok hfile

end Reconcile

namespace Service

open Reconcile (Attempt Errand attempts carryOut errands latest?)

variable {σ : Type} [CloudFacility σ] {table : σ → Table Route Placeholder} {store : ObjectStore} {remotePrefix : String}
  {root : Path} {current newer c : Catalog} {b b' : Bridge σ} {e : Entry} {D : String → Prop} {ledger : List (Attempt σ)}

/-! ## One cycle -/

/-- The errands of a cycle that loads the index from `store`, with the catalog `current` applied last. -/
def cycleErrands (store : ObjectStore) (remotePrefix : String) (current : Catalog) : List Errand :=
  match store.catalogAt remotePrefix with
  | .ok newer => errands (current.diff newer)
  | .error _ => []

theorem errands_of_isEmpty {d : Catalog.Diff} (h : d.isEmpty = true) : errands d = [] := by
  simp only [Catalog.Diff.isEmpty, Bool.and_eq_true, List.isEmpty_iff] at h
  rw [errands, h.1.1, h.1.2]
  rfl

theorem reload_of_ok (h : store.catalogAt remotePrefix = .ok newer) :
    reload store remotePrefix root current b = (newer, carryOut root (errands (current.diff newer)) b) := by
  simp only [reload, h]
  split
  · rename_i hempty
    rw [errands_of_isEmpty hempty]
    rfl
  · rw [Reconcile.run_eq]

theorem reload_of_error {failure : StoreError} (h : store.catalogAt remotePrefix = .error failure) :
    reload store remotePrefix root current b = (current, b) := by
  simp only [reload, h]

theorem reload_bridge (store : ObjectStore) (remotePrefix : String) (root : Path) (current : Catalog) (b : Bridge σ) :
    (reload store remotePrefix root current b).2 = carryOut root (cycleErrands store remotePrefix current) b := by
  unfold cycleErrands
  cases h : store.catalogAt remotePrefix with
  | ok newer => rw [reload_of_ok h]
  | error failure => rw [reload_of_error h]; rfl

/-- Populating a root is a cycle that starts from the empty catalog. -/
theorem populate_eq_reload (store : ObjectStore) (remotePrefix : String) (root : Path) (b : Bridge σ) :
    populate store remotePrefix root b = reload store remotePrefix root .empty b := by
  cases h : store.catalogAt remotePrefix with
  | ok newer =>
    rw [reload_of_ok h]
    simp only [populate, h, Reconcile.run_eq]
  | error failure =>
    rw [reload_of_error h]
    simp only [populate, h, Reconcile.run_eq]
    rfl

/-- The entries attempted in a cycle are those that its catalog adds or changes. -/
theorem attempted_iff (h : store.catalogAt remotePrefix = .ok newer) (he : e ∈ newer.toList) :
    (∃ a ∈ attempts root (cycleErrands store remotePrefix current) b, a.errand.entry = e) ↔
      current.get? e.path = none ∨ ∃ old, current.get? e.path = some old ∧ e.directory = false ∧ old.differs e = true := by
  have herrands : cycleErrands store remotePrefix current = errands (current.diff newer) := by
    rw [cycleErrands, h]
  have hchosen : (∃ x ∈ errands (current.diff newer), x.entry = e) ↔
      e ∈ (current.diff newer).added ∨ e ∈ (current.diff newer).changed := by
    constructor
    · rintro ⟨x, hx, rfl⟩
      exact (Reconcile.mem_errands.1 hx).imp And.right And.right
    · rintro (hadded | hchanged)
      · exact ⟨⟨e, true⟩, Reconcile.mem_errands.2 (.inl ⟨rfl, hadded⟩), rfl⟩
      · exact ⟨⟨e, false⟩, Reconcile.mem_errands.2 (.inr ⟨rfl, hchanged⟩), rfl⟩
  have hattempts : (∃ a ∈ attempts root (errands (current.diff newer)) b, a.errand.entry = e) ↔
      ∃ x ∈ errands (current.diff newer), x.entry = e := by
    constructor
    · rintro ⟨a, ha, rfl⟩
      exact ⟨a.errand, (Reconcile.eq_attempt_of_mem ha).1, rfl⟩
    · rintro ⟨x, hx, rfl⟩
      obtain ⟨a, ha, rfl⟩ := Reconcile.exists_attempt_of_mem root b hx
      exact ⟨a, ha, rfl⟩
  rw [herrands, hattempts, hchosen, Catalog.mem_added, Catalog.mem_changed]
  simp only [he, true_and]

/-! ## All cycles -/

/-- Catalogs loaded from the index have plain paths, and `D` tells their directories from their files. -/
def Legible (remotePrefix : String) (D : String → Prop) (store : ObjectStore) : Prop :=
  ∀ c, store.catalogAt remotePrefix = .ok c → ∀ e ∈ c.toList, Entry.IsPlain e.path ∧ (e.directory = true ↔ D e.path)

/-- Every placeholder of `t` is in `t'` with the same identity and size. -/
def Retained (t t' : Table Route Placeholder) : Prop :=
  ∀ ρ p, t.get? ρ = some p → ∃ p', t'.get? ρ = some p' ∧ p'.identity = p.identity ∧ p'.metadata.size = p.metadata.size

/-- The attempts that were made up to some time, the catalog applied last and the bridge. Between the cycles, the
placeholders change in other respects only. -/
inductive Cycles (table : σ → Table Route Placeholder) (remotePrefix : String) (root : Path) (D : String → Prop) :
    List (Attempt σ) → Catalog → Bridge σ → Prop where
  | populated (store : ObjectStore) (b : Bridge σ) (hstore : Legible remotePrefix D store) :
      Cycles table remotePrefix root D (attempts root (cycleErrands store remotePrefix .empty) b)
        (populate store remotePrefix root b).1 (populate store remotePrefix root b).2
  | reloaded {ledger : List (Attempt σ)} {current : Catalog} {b : Bridge σ}
      (h : Cycles table remotePrefix root D ledger current b) (store : ObjectStore)
      (hstore : Legible remotePrefix D store) :
      Cycles table remotePrefix root D (ledger ++ attempts root (cycleErrands store remotePrefix current) b)
        (reload store remotePrefix root current b).1 (reload store remotePrefix root current b).2
  | elsewhere {ledger : List (Attempt σ)} {current : Catalog} {b b' : Bridge σ}
      (h : Cycles table remotePrefix root D ledger current b) (hkept : Retained (table b.facility) (table b'.facility)) :
      Cycles table remotePrefix root D ledger current b'

/-- The latest attempt at a file was for its present object and size; if it has succeeded, the placeholder has them. -/
def Standing (table : σ → Table Route Placeholder) (root : Path) (ledger : List (Attempt σ)) (e : Entry) (b : Bridge σ) :
    Prop :=
  ∃ a, latest? ledger e.path = some a ∧ a.errand.entry.object = e.object ∧ a.errand.entry.size = e.size ∧
    (a.outcome.isOk = true → ∃ p, (table b.facility).get? (e.pathIn root).route = some p ∧
      p.identity = .ofText e.object ∧ p.metadata.size = e.size)

/-- The catalog is well formed, and its files are where their latest attempts have left them. -/
structure Tracked (table : σ → Table Route Placeholder) (root : Path) (D : String → Prop) (ledger : List (Attempt σ))
    (c : Catalog) (b : Bridge σ) : Prop where
  shaped : c.Shaped D
  standing : ∀ e ∈ c.toList, e.directory = false → Standing table root ledger e b

omit [CloudFacility σ] in
theorem tracked_empty (b : Bridge σ) : Tracked table root D [] .empty b where
  shaped := (Catalog.regular_empty D).toShaped
  standing _ he := absurd he List.not_mem_nil

omit [CloudFacility σ] in
theorem Tracked.retained (h : Tracked table root D ledger c b) (hkept : Retained (table b.facility) (table b'.facility)) :
    Tracked table root D ledger c b' where
  shaped := h.shaped
  standing e he hfile := by
    obtain ⟨a, hlatest, hobject, hsize, hstands⟩ := h.standing e he hfile
    refine ⟨a, hlatest, hobject, hsize, fun hok => ?_⟩
    obtain ⟨p, hp, hidentity, hpsize⟩ := hstands hok
    obtain ⟨p', hp', hidentity', hpsize'⟩ := hkept _ p hp
    exact ⟨p', hp', hidentity'.trans hidentity, hpsize'.trans hpsize⟩

theorem shaped_of_legible (hstore : Legible remotePrefix D store) (h : store.catalogAt remotePrefix = .ok newer) :
    newer.Shaped D := by
  have hkeyed : newer.Keyed := by
    unfold ObjectStore.catalogAt at h
    cases hkeys : store.list (Index.directory remotePrefix) with
    | error failure => simp only [hkeys, bind, Except.bind, reduceCtorEq] at h
    | ok keys =>
      simp only [hkeys, bind, Except.bind] at h
      rw [← Except.ok.inj h]
      exact Catalog.keyed_ofList _
  have hmem : ∀ {p e}, newer.get? p = some e → e ∈ newer.toList ∧ e.path = p := fun hp =>
    ⟨Catalog.mem_toList.2 ⟨_, hp⟩, hkeyed _ _ hp⟩
  refine ⟨hkeyed, fun {p e} hp => ?_, fun {p e} hp => ?_⟩ <;> obtain ⟨he, rfl⟩ := hmem hp
  · exact (hstore newer h e he).1
  · exact (hstore newer h e he).2

/-- A cycle keeps track of every file, of those that it attempts and of those that it passes over. -/
theorem Tracked.reload (hkeeps : CloudFacility.Keeps table) (h : Tracked table root D ledger current b)
    (hstore : Legible remotePrefix D store) :
    Tracked table root D (ledger ++ attempts root (cycleErrands store remotePrefix current) b)
      (reload store remotePrefix root current b).1 (reload store remotePrefix root current b).2 := by
  rw [reload_bridge]
  cases hload : store.catalogAt remotePrefix with
  | error failure =>
    have hnone : cycleErrands store remotePrefix current = [] := by rw [cycleErrands, hload]
    rw [hnone, reload_of_error hload, Reconcile.attempts_nil, List.append_nil]
    exact h
  | ok newer =>
    have hshaped := shaped_of_legible hstore hload
    have herrands : cycleErrands store remotePrefix current = errands (current.diff newer) := by
      rw [cycleErrands, hload]
    rw [herrands, reload_of_ok hload]
    have hplain : ∀ x ∈ errands (current.diff newer), Entry.IsPlain x.entry.path := fun x hx =>
      hshaped.plain_of_mem (Reconcile.entry_mem_of_mem_errands hx)
    refine ⟨hshaped, fun e he hfile => ?_⟩
    have hone : ∀ x ∈ errands (current.diff newer), x.entry.path = e.path → x.entry = e := fun x hx =>
      hshaped.keyed.eq_of_path (Reconcile.entry_mem_of_mem_errands hx) he
    cases hlatest : latest? (attempts root (errands (current.diff newer)) b) e.path with
    | some a =>
      obtain ⟨ha, hpath⟩ := Reconcile.mem_of_latest? hlatest
      have hentry : a.errand.entry = e := hone _ (Reconcile.eq_attempt_of_mem ha).1 hpath
      refine ⟨a, by rw [Reconcile.latest?_append, hlatest]; rfl, by rw [hentry], by rw [hentry], fun hok => ?_⟩
      obtain ⟨p, hp, hmirrors⟩ := Reconcile.mirrors_of_latest? hkeeps hplain hfile hone hlatest hok
      exact ⟨p, hp, hmirrors.identity, hmirrors.size⟩
    | none =>
      have hothers : ∀ x ∈ errands (current.diff newer), x.entry.path ≠ e.path := by
        intro x hx
        obtain ⟨a, ha, rfl⟩ := Reconcile.exists_attempt_of_mem root b hx
        exact Reconcile.latest?_eq_none.1 hlatest a ha
      -- The entry was passed over, so the catalog before had it with the same contents.
      have hadded : e ∉ (current.diff newer).added := fun hnew =>
        hothers ⟨e, true⟩ (Reconcile.mem_errands.2 (.inl ⟨rfl, hnew⟩)) rfl
      have hchanged : e ∉ (current.diff newer).changed := fun hnew =>
        hothers ⟨e, false⟩ (Reconcile.mem_errands.2 (.inr ⟨rfl, hnew⟩)) rfl
      obtain ⟨old, hold, hsame⟩ := Catalog.get?_of_passed_over he hadded hchanged
      obtain ⟨hobject, hsize, -⟩ := hsame hfile
      have hpath : old.path = e.path := h.shaped.keyed _ _ hold
      have holdfile : old.directory = false := (h.shaped.directory_eq hshaped hold (hshaped.keyed.mem_toList.1 he)).trans hfile
      have hplaine := hshaped.plain_of_mem he
      have hroute := (Entry.route_pathIn_inj root (hpath ▸ hplaine) hplaine).2 hpath
      obtain ⟨a, hlatesta, haobject, hasize, hstands⟩ := h.standing old (Catalog.mem_toList.2 ⟨_, hold⟩) holdfile
      refine ⟨a, ?_, haobject.trans hobject, hasize.trans hsize, fun hok => ?_⟩
      · rw [Reconcile.latest?_append, hlatest, Option.none_or, ← hpath]
        exact hlatesta
      · obtain ⟨p, hp, hidentity, hpsize⟩ := hstands hok
        rw [hroute] at hp
        refine ⟨p, ?_, by rw [hidentity, hobject], by rw [hpsize, hsize]⟩
        rw [Reconcile.get?_carryOut_of_path_ne hkeeps hplain hplaine hothers, hp]

theorem Cycles.tracked (hkeeps : CloudFacility.Keeps table) (h : Cycles table remotePrefix root D ledger c b) :
    Tracked table root D ledger c b := by
  induction h with
  | populated store b hstore =>
    rw [populate_eq_reload]
    exact (tracked_empty b).reload hkeeps hstore
  | reloaded h store hstore ih => exact ih.reload hkeeps hstore
  | elsewhere h hkept ih => exact ih.retained hkept

/-- After any cycle the latest attempt at every file was for its present object and size, and if it has succeeded, the
placeholder has them; what the next cycle attempts depends on the two catalogs alone. -/
theorem latest_success_stands (hkeeps : CloudFacility.Keeps table) (h : Cycles table remotePrefix root D ledger c b) :
    (∀ e ∈ c.toList, e.directory = false → Standing table root ledger e b) ∧
      ∀ store newer, store.catalogAt remotePrefix = .ok newer → ∀ e ∈ newer.toList,
        ((∃ a ∈ attempts root (cycleErrands store remotePrefix c) b, a.errand.entry = e) ↔
          c.get? e.path = none ∨
            ∃ old, c.get? e.path = some old ∧ e.directory = false ∧ old.differs e = true) :=
  ⟨(h.tracked hkeeps).standing, fun _ _ hload _ he => attempted_iff hload he⟩

/-! ### One refusal -/

/-- A store whose index has one file. -/
def oneFile (text : String) : ObjectStore := Store.Memory.store (.insert ∅ "team/index/a.txt" (Text.Utf8.encode text))

/-- A registered root and a refusal planned for the first placeholder to be created. -/
def refusedOnce : Bridge Facility :=
  .ofFacility ((Facility.register ⟨"/s"⟩ (.new "name" "1") .empty).2.planFault .create .accessDenied)

theorem legible_of_files (h : ∀ e ∈ ((store.catalogAt remotePrefix).toOption.map Catalog.toList).getD [],
    Entry.IsPlain e.path ∧ e.directory = false) : Legible remotePrefix (fun _ => False) store := by
  intro c hc e he
  rw [hc] at h
  obtain ⟨hplain, hfile⟩ := h e he
  exact ⟨hplain, iff_of_false (by rw [hfile]; decide) id⟩

/-- The create is refused, and the file is there once the index has changed. -/
theorem latest_success_stands_changed :
    let first := populate (oneFile "object=o1\nsize=2\nmtime=1\n") "team" ⟨"/s"⟩ refusedOnce
    let second := reload (oneFile "object=o2\nsize=3\nmtime=2\n") "team" ⟨"/s"⟩ first.1 first.2
    first.2.facility.placeholder? ⟨"/s/a.txt"⟩ = none ∧
      ∃ p, second.2.facility.placeholder? ⟨"/s/a.txt"⟩ = some p ∧ p.identity = .ofText "o2" ∧ p.metadata.size = 3 := by
  intro first second
  have hcycles : Cycles Facility.placeholders "team" ⟨"/s"⟩ (fun _ => False) _ second.1 second.2 :=
    .reloaded (.populated _ refusedOnce (legible_of_files (by decide +kernel))) _ (legible_of_files (by decide +kernel))
  obtain ⟨a, hlatest, -, -, hstands⟩ := (latest_success_stands Facility.keeps hcycles).1
    ⟨"a.txt", "o2", 3, 2, false⟩ (by decide +kernel) rfl
  have hok : (latest? (attempts ⟨"/s"⟩ (cycleErrands (oneFile "object=o1\nsize=2\nmtime=1\n") "team" .empty) refusedOnce ++
      attempts ⟨"/s"⟩ (cycleErrands (oneFile "object=o2\nsize=3\nmtime=2\n") "team" first.1) first.2) "a.txt").all
        (·.outcome.isOk) = true := by
    decide +kernel
  rw [hlatest] at hok
  exact ⟨by decide +kernel, hstands hok⟩

/-- The create is refused once. In the next cycle the index says the same and no refusal is planned, and still the
file has no placeholder. -/
theorem refused_create_not_repeated :
    let store := oneFile "object=o1\nsize=2\nmtime=1\n"
    let first := populate store "team" ⟨"/s"⟩ refusedOnce
    let second := reload store "team" ⟨"/s"⟩ first.1 first.2
    first.2.facility.faults .create = none ∧ first.2.facility.faults .update = none ∧
      ⟨"a.txt", "o1", 2, 1, false⟩ ∈ second.1.toList ∧ second.2.facility.placeholder? ⟨"/s/a.txt"⟩ = none := by
  decide +kernel

end Service

end OnDemand
