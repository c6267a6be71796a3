import OnDemand.Facility.Operations
import OnDemand.Facility.Recorded
import OnDemand.Proofs.Catalog.Segments
import OnDemand.Proofs.Reconcile.Attempts

/-!
# What a run asks of the facility

Every call of a run is for one entry, and names its parent below the root or its path there. Names are checked where a
placeholder is created, and only the last segment of a path is: the steps to the parent are taken as they are, and an
update is made of any path.
-/

namespace OnDemand

/-- `p` is `root`, extended by names that a placeholder can have. -/
def Path.Extends (root p : Path) : Prop :=
  ∃ names : List String, (∀ n ∈ names, Bridge.isValidName n = true) ∧ p = root.descend names

namespace Call.Note

/-- The directory in which the call creates, or the path that it updates. -/
def place? : Call.Note → Option Path
  | .create parent _ _ => some parent
  | .update path _ _ _ => some path
  | _ => none

/-- The call is for `e`: it creates in the parent of `e`, or updates at its path. -/
def IsFor (root : Path) (e : Entry) : Call.Note → Prop
  | .create parent new _ => parent = e.parentIn root ∧ new.name = e.name ∧ Bridge.isValidName e.name = true
  | .update path _ _ _ => path = e.pathIn root
  | _ => False

/-- The places that the call names are `root`, extended by names. -/
def StaysBelow (root : Path) : Call.Note → Prop
  | .create parent new _ => root.Extends parent ∧ Bridge.isValidName new.name = true
  | .update path _ _ _ => root.Extends path
  | _ => True

theorem IsFor.staysBelow {root : Path} {e : Entry} {note : Call.Note} (h : note.IsFor root e)
    (hplain : Entry.IsPlain e.path) : note.StaysBelow root := by
  have hsteps : ∀ n ∈ Entry.steps e.parent ++ [e.name], Bridge.isValidName n = true := by
    rw [← hplain.tidy.segments_eq]
    exact hplain
  cases note with
  | create parent new refusal =>
    obtain ⟨hparent, hname, hvalid⟩ := h
    refine ⟨⟨_, fun n hn => hsteps n (List.mem_append_left _ hn), ?_⟩, by rwa [hname]⟩
    rw [hparent, Entry.parentIn_eq]
  | update path metadata identity refusal => exact ⟨_, hsteps, by rw [h, Entry.pathIn_eq]⟩
  | register | unregister | connect | disconnect | dehydrate | execute => exact h.elim

end Call.Note

namespace Bridge

variable {σ : Type} [CloudFacility σ] {b : Bridge (Recorded σ)} {name : String} {identity : FileIdentity} {size : Nat}

theorem notes_create (b : Bridge (Recorded σ)) (parent : Path) (mtime : Int) (directory : Bool)
    (hname : isValidName name = true) (hfits : fitsFacility identity size = true) :
    ∃ refusal, (create parent name identity size mtime directory b).2.facility.notes =
      b.facility.notes ++ [.create parent (.of name identity size mtime directory) refusal] := by
  simp only [create, hname, hfits, Bool.and_self, if_true, ask]
  exact ⟨_, rfl⟩

theorem notes_update (b : Bridge (Recorded σ)) (path : Path) (mtime : Int) (hfits : fitsFacility identity size = true) :
    ∃ refusal, (update path identity size mtime b).2.facility.notes =
      b.facility.notes ++ [.update path (.amendment size mtime) identity refusal] := by
  simp only [update, hfits, if_true, ask]
  exact ⟨_, rfl⟩

end Bridge

namespace Reconcile

variable {root : Path} {x : Errand} {e : Entry} {d : Catalog.Diff}

/-- The check that is made of the entry before the facility is asked: of its identity and size, and of its name if it is
to be created. -/
def Errand.Admitted (x : Errand) : Prop :=
  Bridge.fitsFacility (.ofText x.entry.object) x.entry.size = true ∧
    (x.isNew = true → Bridge.isValidName x.entry.name = true)

variable {σ : Type} [CloudFacility σ] {b : Bridge (Recorded σ)}

/-- `after` has noted the calls `calls`, all of them for `e`. -/
def Notes (root : Path) (e : Entry) (b after : Bridge (Recorded σ)) (calls : List Call.Note) : Prop :=
  after.facility.notes = b.facility.notes ++ calls ∧ ∀ note ∈ calls, note.IsFor root e

omit [CloudFacility σ] in
theorem Notes.append {after last : Bridge (Recorded σ)} {calls more : List Call.Note} (h : Notes root e b after calls)
    (h' : Notes root e after last more) : Notes root e b last (calls ++ more) := by
  refine ⟨by rw [h'.1, h.1, List.append_assoc], fun note hnote => ?_⟩
  exact (List.mem_append.1 hnote).elim (h.2 note) (h'.2 note)

theorem notes_update (root : Path) (b : Bridge (Recorded σ)) (hfits : Bridge.fitsFacility (.ofText e.object) e.size = true) :
    ∃ call, Notes root e b (Bridge.update (e.pathIn root) (.ofText e.object) e.size e.mtime b).2 [call] := by
  obtain ⟨refusal, hnotes⟩ := Bridge.notes_update b (e.pathIn root) e.mtime hfits
  refine ⟨_, hnotes, fun note hnote => ?_⟩
  obtain rfl := List.mem_singleton.1 hnote
  exact rfl

theorem notes_create (root : Path) (b : Bridge (Recorded σ)) (hname : Bridge.isValidName e.name = true)
    (hfits : Bridge.fitsFacility (.ofText e.object) e.size = true) :
    ∃ call, Notes root e b
      (Bridge.create (e.parentIn root) e.name (.ofText e.object) e.size e.mtime e.directory b).2 [call] := by
  obtain ⟨refusal, hnotes⟩ := Bridge.notes_create b (e.parentIn root) e.mtime e.directory hname hfits
  refine ⟨_, hnotes, fun note hnote => ?_⟩
  obtain rfl := List.mem_singleton.1 hnote
  exact ⟨rfl, rfl, hname⟩

theorem notes_placeAdded (root : Path) (b : Bridge (Recorded σ)) (hname : Bridge.isValidName e.name = true)
    (hfits : Bridge.fitsFacility (.ofText e.object) e.size = true) :
    ∃ call rest, Notes root e b (placeAdded root e b).2 (call :: rest) := by
  obtain ⟨first, hcreate⟩ := notes_create root b hname hfits
  rw [placeAdded_eq]
  cases hb : Bridge.create (e.parentIn root) e.name (.ofText e.object) e.size e.mtime e.directory b with
  | mk answer after =>
    rw [hb] at hcreate
    cases answer with
    | ok u => exact ⟨first, [], hcreate⟩
    | error failure =>
      cases failure with
      | alreadyExists path status =>
        by_cases hdirectory : e.directory = true
        · simp only [if_pos hdirectory]
          exact ⟨first, [], hcreate⟩
        · simp only [if_neg hdirectory]
          obtain ⟨call, hupdate⟩ := notes_update root after hfits
          have hboth := hcreate.append hupdate
          cases hu : Bridge.update (e.pathIn root) (.ofText e.object) e.size e.mtime after with
          | mk answer last =>
            rw [hu] at hboth
            cases answer <;> exact ⟨first, [call], hboth⟩
      | _ => exact ⟨first, [], hcreate⟩

theorem notes_placeChanged (root : Path) (b : Bridge (Recorded σ)) (hfits : Bridge.fitsFacility (.ofText e.object) e.size = true) :
    ∃ call rest, Notes root e b (placeChanged root e b).2 (call :: rest) := by
  obtain ⟨call, hupdate⟩ := notes_update root b hfits
  rw [placeChanged_eq]
  cases hb : Bridge.update (e.pathIn root) (.ofText e.object) e.size e.mtime b with
  | mk answer after =>
    rw [hb] at hupdate
    cases answer with
    | ok u => exact ⟨call, [], hupdate⟩
    | error failure =>
      cases failure with
      | notFound path status =>
        by_cases hname : Bridge.isValidName e.name = true
        · obtain ⟨first, rest, hadded⟩ := notes_placeAdded root after hname hfits
          exact ⟨call, first :: rest, hupdate.append hadded⟩
        · have hrefused : placeAdded root e after = _ := placeAdded_refused fun h => hname h.1
          simp only [hrefused]
          exact ⟨call, [], hupdate⟩
      | _ => exact ⟨call, [], hupdate⟩

/-- An errand asks the facility exactly if the entry is admitted, and only about the entry. -/
theorem notes_place (root : Path) (x : Errand) (b : Bridge (Recorded σ)) :
    ∃ calls, Notes root x.entry b (x.place root b).2 calls ∧ (calls ≠ [] ↔ x.Admitted) := by
  obtain ⟨e, isNew⟩ := x
  by_cases hfits : Bridge.fitsFacility (.ofText e.object) e.size = true
  · cases isNew with
    | true =>
      by_cases hname : Bridge.isValidName e.name = true
      · obtain ⟨call, rest, hnotes⟩ := notes_placeAdded root b hname hfits
        rw [place_new]
        exact ⟨_, hnotes, iff_of_true (List.cons_ne_nil _ _) ⟨hfits, fun _ => hname⟩⟩
      · rw [place_new, placeAdded_refused fun h => hname h.1]
        exact ⟨[], ⟨(List.append_nil _).symm, fun _ h => absurd h List.not_mem_nil⟩,
          iff_of_false (fun h => h rfl) fun h => hname (h.2 rfl)⟩
    | false =>
      obtain ⟨call, rest, hnotes⟩ := notes_placeChanged root b hfits
      rw [place_changed]
      exact ⟨_, hnotes, iff_of_true (List.cons_ne_nil _ _) ⟨hfits, fun h => nomatch h⟩⟩
  · have hrefused : (Errand.place root ⟨e, isNew⟩ b).2 = b := by
      cases isNew with
      | true => rw [place_new, placeAdded_refused fun h => hfits h.2]
      | false => rw [place_changed, placeChanged_eq, Bridge.update_refused hfits]
    rw [hrefused]
    exact ⟨[], ⟨(List.append_nil _).symm, fun _ h => absurd h List.not_mem_nil⟩,
      iff_of_false (fun h => h rfl) fun h => hfits h.1⟩

/-- The calls that an attempt has made. -/
def Attempt.calls (a : Attempt (Recorded σ)) : List Call.Note :=
  a.after.facility.notes.drop a.before.facility.notes.length

theorem calls_attempt (root : Path) (x : Errand) (b : Bridge (Recorded σ)) :
    ((x.attempt root b).calls ≠ [] ↔ x.Admitted) ∧ ∀ note ∈ (x.attempt root b).calls, note.IsFor root x.entry := by
  obtain ⟨calls, ⟨hnotes, hfor⟩, hadmitted⟩ := notes_place root x b
  have hcalls : (x.attempt root b).calls = calls := by
    rw [Attempt.calls, Errand.attempt, hnotes]
    exact List.drop_left
  rw [hcalls]
  exact ⟨hadmitted, hfor⟩

/-- The calls stay below `root`, and an entry with a segment that cannot be a name is refused without one. -/
structure Confined (root : Path) (l : List (Attempt (Recorded σ))) : Prop where
  below : ∀ a ∈ l, ∀ note ∈ a.calls, note.StaysBelow root
  refused : ∀ a ∈ l, ¬Entry.IsPlain a.errand.entry.path → a.calls = []

/-- A run asks the facility about the entries that are admitted, each at its own place below the root. So it is confined
exactly if every admitted entry has a plain path: neither the steps to a parent nor the path of an update are checked. -/
theorem confined_iff_admitted_plain (root : Path) (d : Catalog.Diff) (b : Bridge (Recorded σ)) :
    (∀ a ∈ attempts root (errands d) b,
      (a.calls ≠ [] ↔ a.errand.Admitted) ∧ ∀ note ∈ a.calls, note.IsFor root a.errand.entry) ∧
    (Confined root (attempts root (errands d) b) ↔
      ∀ x ∈ errands d, x.Admitted → Entry.IsPlain x.entry.path) := by
  have hcalls : ∀ a ∈ attempts root (errands d) b,
      (a.calls ≠ [] ↔ a.errand.Admitted) ∧ ∀ note ∈ a.calls, note.IsFor root a.errand.entry := by
    intro a ha
    rw [(eq_attempt_of_mem ha).2]
    exact calls_attempt root a.errand a.before
  refine ⟨hcalls, fun h x hx hadmitted => ?_, fun h => ⟨fun a ha note hnote => ?_, fun a ha hplain => ?_⟩⟩
  · obtain ⟨a, ha, rfl⟩ := exists_attempt_of_mem root b hx
    exact Decidable.byContradiction fun hplain => (hcalls a ha).1.2 hadmitted (h.refused a ha hplain)
  · have hadmitted := (hcalls a ha).1.1 (List.ne_nil_of_mem hnote)
    exact ((hcalls a ha).2 note hnote).staysBelow (h _ (eq_attempt_of_mem ha).1 hadmitted)
  · exact Classical.byContradiction fun hne => hplain (h _ (eq_attempt_of_mem ha).1 ((hcalls a ha).1.1 hne))

/-- A path that goes up from the root, and the directory that it implies. -/
def upward : Catalog := .ofList [⟨"../x", "o", 1, 1, false⟩]

/-- The implied directory is refused for its name, but the file below it is not: it is asked for in the directory above
the root. -/
theorem parent_above_root :
    let b : Bridge (Recorded Facility) := .ofFacility ⟨Facility.empty, []⟩
    (run ⟨"/r"⟩ (Catalog.empty.diff upward) b).2.facility.notes.map Call.Note.place? = [some (Path.mk "/r/..")] ∧
      ¬Entry.IsPlain "../x" := by
  decide +kernel

end Reconcile

end OnDemand
