import OnDemand.Proofs.Facility.Calls
import OnDemand.Proofs.Reconcile.Attempts

/-!
# What an errand does to the placeholders

Whatever the facility answers, an errand changes the placeholder of its entry at most. Answered with success, it leaves
the placeholder of a file with the identity, the size and the time of the entry.
-/

namespace OnDemand

/-- A facility keeps its placeholders in a table if it does what it accepts: what it creates stands where nothing stood,
what it updates stood there before, and a refusal leaves everything as it is. -/
structure CloudFacility.Keeps {σ : Type} [CloudFacility σ] (table : σ → Table Route Placeholder) : Prop where
  created : ∀ {parent new s s'}, CloudFacility.createPlaceholder parent new s = (.ok (), s') →
    (table s).get? (parent.join new.name).route = none ∧
      table s' = (table s).insert (parent.join new.name).route (.create (parent.join new.name) new)
  createRefused : ∀ {parent new s status s'}, CloudFacility.createPlaceholder parent new s = (.error status, s') →
    table s' = table s
  updated : ∀ {path metadata identity s s'}, CloudFacility.updatePlaceholder path metadata identity s = (.ok (), s') →
    ∃ p, (table s).get? path.route = some p ∧ table s' = (table s).insert path.route (p.update metadata identity)
  updateRefused : ∀ {path metadata identity s status s'},
    CloudFacility.updatePlaceholder path metadata identity s = (.error status, s') → table s' = table s

theorem Facility.keeps : CloudFacility.Keeps Facility.placeholders where
  created h := by
    obtain ⟨-, -, -, hnone, rfl⟩ := Facility.create_ok.1 h
    exact ⟨hnone, rfl⟩
  createRefused {parent new s status s'} h := by
    have hcreate : Facility.create parent new s = (.error status, s') := h
    rw [Facility.attempt_error hcreate]
    rfl
  updated h := by
    obtain ⟨-, p, hp, rfl⟩ := Facility.update_ok.1 h
    exact ⟨p, hp, rfl⟩
  updateRefused {path metadata identity s status s'} h := by
    have hupdate : Facility.update path metadata identity s = (.error status, s') := h
    rw [Facility.attempt_error hupdate]
    rfl

section Bridge

variable {σ : Type} [CloudFacility σ] {table : σ → Table Route Placeholder}

theorem CloudFacility.Keeps.create (h : CloudFacility.Keeps table) (parent : Path) (name : String)
    (identity : FileIdentity) (size : Nat) (mtime : Int) (directory : Bool) {b b' : Bridge σ} {answer}
    (hb : Bridge.create parent name identity size mtime directory b = (answer, b')) :
    (∃ failure, answer = .error failure ∧ table b'.facility = table b.facility) ∨
      (answer = .ok () ∧ (table b.facility).get? (parent.join name).route = none ∧
        table b'.facility = (table b.facility).insert (parent.join name).route
          (.create (parent.join name) (.of name identity size mtime directory))) := by
  simp only [Bridge.create] at hb
  split at hb
  · cases hcall : CloudFacility.createPlaceholder parent (.of name identity size mtime directory) b.facility with
    | mk reply s =>
      simp only [Bridge.ask, hcall] at hb
      obtain ⟨rfl, rfl⟩ := Prod.mk.inj hb
      cases reply with
      | ok u =>
        obtain ⟨hnone, hinsert⟩ := h.created hcall
        exact .inr ⟨rfl, hnone, hinsert⟩
      | error status => exact .inl ⟨_, rfl, h.createRefused hcall⟩
  · obtain ⟨rfl, rfl⟩ := Prod.mk.inj hb
    exact .inl ⟨_, rfl, rfl⟩

theorem CloudFacility.Keeps.update (h : CloudFacility.Keeps table) (path : Path) (identity : FileIdentity) (size : Nat)
    (mtime : Int) {b b' : Bridge σ} {answer} (hb : Bridge.update path identity size mtime b = (answer, b')) :
    (∃ failure, answer = .error failure ∧ table b'.facility = table b.facility) ∨
      (answer = .ok () ∧ ∃ p, (table b.facility).get? path.route = some p ∧
        table b'.facility = (table b.facility).insert path.route (p.update (.amendment size mtime) identity)) := by
  simp only [Bridge.update] at hb
  split at hb
  · cases hcall : CloudFacility.updatePlaceholder path (.amendment size mtime) identity b.facility with
    | mk reply s =>
      simp only [Bridge.ask, hcall] at hb
      obtain ⟨rfl, rfl⟩ := Prod.mk.inj hb
      cases reply with
      | ok u => exact .inr ⟨rfl, h.updated hcall⟩
      | error status => exact .inl ⟨_, rfl, h.updateRefused hcall⟩
  · obtain ⟨rfl, rfl⟩ := Prod.mk.inj hb
    exact .inl ⟨_, rfl, rfl⟩

end Bridge

/-- The placeholder carries what the file `e` says. -/
structure Placeholder.Mirrors (p : Placeholder) (e : Entry) : Prop where
  identity : p.identity = .ofText e.object
  size : p.metadata.size = e.size
  written : e.mtime ≠ -Filetime.epochDelta → p.metadata.written = Filetime.ofUnix e.mtime
  inSync : p.inSync = true

theorem Filetime.ofUnix_ne_zero {mtime : Int} (h : mtime ≠ -epochDelta) : ofUnix mtime ≠ 0 := by
  have : Word.minSigned < 0 ∧ 0 < Word.maxSigned := by decide
  unfold ofUnix Word.clamp ticksPerSecond
  omega

namespace Reconcile

/-- The placeholder that creating `e` below `root` makes. -/
def fresh (root : Path) (e : Entry) : Placeholder :=
  .create (e.pathIn root) (.of e.name (.ofText e.object) e.size e.mtime e.directory)

/-- What updating `p` for `e` makes of it. -/
def renewed (e : Entry) (p : Placeholder) : Placeholder := p.update (.amendment e.size e.mtime) (.ofText e.object)

theorem isDirectory_fresh {root : Path} {e : Entry} : (fresh root e).isDirectory = e.directory :=
  Metadata.isDirectory_initial ..

theorem isDirectory_renewed {e : Entry} {p : Placeholder} : (renewed e p).isDirectory = p.isDirectory := rfl

theorem mirrors_fresh {root : Path} {e : Entry} (h : e.directory = false) : (fresh root e).Mirrors e := by
  simp only [fresh, h]
  exact ⟨rfl, rfl, fun _ => rfl, rfl⟩

theorem mirrors_renewed {e : Entry} {p : Placeholder} : (renewed e p).Mirrors e where
  identity := rfl
  size := rfl
  written hmtime := if_neg (Filetime.ofUnix_ne_zero hmtime)
  inSync := rfl

/-- The ways in which an errand for `e` comes out, and what is then in the table of placeholders, `t` before it. -/
inductive Placing (t : Table Route Placeholder) (root : Path) (e : Entry) :
    Except PlaceholderError Placed → Table Route Placeholder → Prop where
  | failed (failure : PlaceholderError) : Placing t root e (.error failure) t
  /-- A directory is said to stand already. -/
  | stood (hdirectory : e.directory = true) : Placing t root e (.ok .updated) t
  | created (hnone : t.get? (e.pathIn root).route = none) :
      Placing t root e (.ok .created) (t.insert (e.pathIn root).route (fresh root e))
  | updated (p : Placeholder) (hp : t.get? (e.pathIn root).route = some p) :
      Placing t root e (.ok .updated) (t.insert (e.pathIn root).route (renewed e p))

namespace Placing

variable {t t' : Table Route Placeholder} {root : Path} {e : Entry} {outcome : Except PlaceholderError Placed} {ρ : Route}
  {p : Placeholder}

theorem get?_of_ne (h : Placing t root e outcome t') (hρ : ρ ≠ (e.pathIn root).route) : t'.get? ρ = t.get? ρ := by
  cases h with
  | failed failure => rfl
  | stood hdirectory => rfl
  | created hnone => exact Table.get?_insert_of_ne hρ
  | updated p hp => exact Table.get?_insert_of_ne hρ

/-- What is new is what the entry is, a directory or a file. -/
theorem kind (h : Placing t root e outcome t') (hp : t'.get? ρ = some p) :
    (∃ q, t.get? ρ = some q ∧ q.isDirectory = p.isDirectory) ∨
      (ρ = (e.pathIn root).route ∧ p.isDirectory = e.directory) := by
  by_cases hρ : ρ = (e.pathIn root).route
  · rw [hρ] at hp ⊢
    cases h with
    | failed failure => exact .inl ⟨p, hp, rfl⟩
    | stood hdirectory => exact .inl ⟨p, hp, rfl⟩
    | created hnone =>
      rw [Table.get?_insert_self] at hp
      exact .inr ⟨rfl, by rw [← Option.some.inj hp, isDirectory_fresh]⟩
    | updated q hq =>
      rw [Table.get?_insert_self] at hp
      exact .inl ⟨q, hq, by rw [← Option.some.inj hp, isDirectory_renewed]⟩
  · rw [h.get?_of_ne hρ] at hp
    exact .inl ⟨p, hp, rfl⟩

theorem mirrors (h : Placing t root e outcome t') (hok : outcome.isOk = true) (hfile : e.directory = false) :
    ∃ p, t'.get? (e.pathIn root).route = some p ∧ p.Mirrors e := by
  cases h with
  | failed failure => cases hok
  | stood hdirectory => rw [hfile] at hdirectory; cases hdirectory
  | created hnone => exact ⟨_, Table.get?_insert_self, mirrors_fresh hfile⟩
  | updated p hp => exact ⟨_, Table.get?_insert_self, mirrors_renewed⟩

end Placing

variable {σ : Type} [CloudFacility σ] {table : σ → Table Route Placeholder}

theorem placing_placeAdded (h : CloudFacility.Keeps table) (root : Path) (e : Entry) (b : Bridge σ) :
    Placing (table b.facility) root e (placeAdded root e b).1 (table (placeAdded root e b).2.facility) := by
  rw [placeAdded_eq]
  cases hcreate : Bridge.create (e.parentIn root) e.name (.ofText e.object) e.size e.mtime e.directory b with
  | mk answer b₁ =>
    rcases h.create _ _ _ _ _ _ hcreate with ⟨failure, rfl, hkept⟩ | ⟨rfl, hnone, hinsert⟩
    · cases failure with
      | alreadyExists path status =>
        by_cases hdirectory : e.directory = true
        · simp only [if_pos hdirectory, hkept]
          exact .stood hdirectory
        · simp only [if_neg hdirectory]
          cases hupdate : Bridge.update (e.pathIn root) (.ofText e.object) e.size e.mtime b₁ with
          | mk answer b₂ =>
            rcases h.update _ _ _ _ hupdate with ⟨failure, rfl, hkept'⟩ | ⟨rfl, p, hp, hinsert⟩
            · simp only [hkept', hkept]
              exact .failed failure
            · rw [hkept] at hp
              simp only [hinsert, hkept]
              exact .updated p hp
      | _ =>
        simp only [hkept]
        exact .failed _
    · simp only [hinsert]
      exact .created hnone

theorem placing_placeChanged (h : CloudFacility.Keeps table) (root : Path) (e : Entry) (b : Bridge σ) :
    Placing (table b.facility) root e (placeChanged root e b).1 (table (placeChanged root e b).2.facility) := by
  rw [placeChanged_eq]
  cases hupdate : Bridge.update (e.pathIn root) (.ofText e.object) e.size e.mtime b with
  | mk answer b₁ =>
    rcases h.update _ _ _ _ hupdate with ⟨failure, rfl, hkept⟩ | ⟨rfl, p, hp, hinsert⟩
    · cases failure with
      | notFound path status =>
        simp only
        rw [← hkept]
        exact placing_placeAdded h root e b₁
      | _ =>
        simp only [hkept]
        exact .failed _
    · simp only [hinsert]
      exact .updated p hp

theorem placing_place (h : CloudFacility.Keeps table) (root : Path) (x : Errand) (b : Bridge σ) :
    Placing (table b.facility) root x.entry (x.place root b).1 (table (x.place root b).2.facility) := by
  unfold Errand.place
  split
  · exact placing_placeAdded h root x.entry b
  · exact placing_placeChanged h root x.entry b

/-- Errands leave alone what stands at no place of theirs. -/
theorem get?_carryOut_of_ne (h : CloudFacility.Keeps table) {root : Path} {b : Bridge σ} {xs : List Errand} {ρ : Route}
    (hne : ∀ x ∈ xs, ρ ≠ (x.entry.pathIn root).route) :
    (table (carryOut root xs b).facility).get? ρ = (table b.facility).get? ρ := by
  induction xs generalizing b with
  | nil => rfl
  | cons x xs ih =>
    rw [carryOut_cons, ih fun y hy => hne y (List.mem_cons_of_mem x hy)]
    exact (placing_place h root x b).get?_of_ne (hne x List.mem_cons_self)

end Reconcile

end OnDemand
