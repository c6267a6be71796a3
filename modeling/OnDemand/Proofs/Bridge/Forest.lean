import Mathlib.Data.List.Infix
import OnDemand.Proofs.Bridge.InMemory
import OnDemand.Proofs.Facility.Forest

/-!
# The namespace of a run

The bridge hands over no name that cannot be one and no attributes in an update. So in runs through it the placeholders
stay a forest below the registered roots, and a placeholder stays a directory or a file.
-/

namespace OnDemand.Usage

variable {u : Usage Facility} {m : Move Facility.Move} {ms before rest : List (Move Facility.Move)} {ρ : Route}
  {p q : Placeholder}

/-- What happens beside the bridge creates nothing under a name that cannot be one, and sets no attributes in an
update. -/
def Move.isManaged : Move Facility.Move → Bool
  | .elsewhere fm => fm.isManaged
  | _ => true

/-- A managed move leaves the facility as it is, or makes one managed move of it. -/
theorem managed_next (u : Usage Facility) (hm : m.isManaged = true) :
    (u.next react m).bridge.facility = u.bridge.facility ∨
      ∃ fm : Facility.Move, fm.isManaged = true ∧ (u.next react m).bridge.facility = u.bridge.facility.next fm := by
  have hfacility := facility_next u m
  cases m with
  | create parent name identity size mtime directory =>
    simp only [next, Bridge.create]
    split
    · rename_i hvalid
      exact .inr ⟨.create parent (.of name identity size mtime directory), (Bool.and_eq_true_iff.1 hvalid).1, rfl⟩
    · exact .inl rfl
  | close place =>
    rcases hfacility with hsame | ⟨fm, ⟨c, -, rfl⟩, hfm⟩
    · exact .inl hsame
    · exact .inr ⟨_, rfl, hfm⟩
  | _ =>
    rcases hfacility with hsame | ⟨fm, rfl, hfm⟩
    · exact .inl hsame
    · refine .inr ⟨_, ?_, hfm⟩
      exact hm

theorem forest_run (hmanaged : ∀ m ∈ ms, m.isManaged = true) : (run ms).bridge.facility.Forest := by
  induction ms using List.reverseRecOn with
  | nil => exact ⟨nofun, fun h => absurd rfl h, fun h => absurd rfl h⟩
  | append_singleton ms m ih =>
    have hforest := ih fun n hn => hmanaged n (List.mem_append_left _ hn)
    rw [run_append_singleton]
    rcases managed_next (run ms) (hmanaged m (List.mem_append_right _ List.mem_cons_self)) with hsame | ⟨fm, hfm, hnext⟩
    · rwa [hsame]
    · rw [hnext]
      exact hforest.next hfm

/-- At no time does a registered root lie below another one. -/
def AlwaysFlat (ms : List (Move Facility.Move)) : Prop := ∀ before ∈ ms.inits, (run before).bridge.facility.Flat

instance (ms : List (Move Facility.Move)) : Decidable (AlwaysFlat ms) :=
  inferInstanceAs (Decidable (∀ before ∈ ms.inits, (run before).bridge.facility.Flat))

theorem mem_inits_append {part : List (Move Facility.Move)} (h : part ∈ before.inits) : part ∈ (before ++ rest).inits :=
  (List.mem_inits ..).2 (((List.mem_inits ..).1 h).trans (List.prefix_append ..))

theorem self_mem_inits_append : before ∈ (before ++ rest).inits :=
  (List.mem_inits ..).2 (List.prefix_append ..)

theorem hollow_run (hmanaged : ∀ m ∈ ms, m.isManaged = true) (hflat : AlwaysFlat ms) :
    (run ms).bridge.facility.Hollow := by
  induction ms using List.reverseRecOn with
  | nil => exact ⟨nofun, nofun⟩
  | append_singleton ms m ih =>
    have hhollow := ih (fun n hn => hmanaged n (List.mem_append_left _ hn)) fun part h => hflat part (mem_inits_append h)
    rw [run_append_singleton]
    rcases managed_next (run ms) (hmanaged m (List.mem_append_right _ List.mem_cons_self)) with hsame | ⟨fm, hfm, hnext⟩
    · rwa [hsame]
    · rw [hnext]
      obtain ⟨fms, hfms⟩ := exists_after ms
      refine hhollow.next (hflat ms self_mem_inits_append) ?_ ?_ hfm
      · rw [hfms]
        exact Facility.anchored_after fms
      · rw [hfms]
        exact Facility.rooted_after fms

theorem kind_next (hm : m.isManaged = true) (hp : u.bridge.facility.placeholders.get? ρ = some p)
    (hq : (u.next react m).bridge.facility.placeholders.get? ρ = some q) : q.isDirectory = p.isDirectory := by
  rcases managed_next u hm with hsame | ⟨fm, hfm, hnext⟩
  · rw [hsame, hp] at hq
    rw [Option.some.inj hq]
  · rw [hnext] at hq
    exact (Facility.namespaceChange_next _ hfm).kind hp hq

/-- A placeholder that is there all the time stays a directory or a file. -/
theorem kind_run (hmanaged : ∀ m ∈ rest, m.isManaged = true)
    (hthere : ∀ part ∈ rest.inits, ((run (before ++ part)).bridge.facility.placeholders.get? ρ).isSome = true)
    (hp : (run before).bridge.facility.placeholders.get? ρ = some p)
    (hq : (run (before ++ rest)).bridge.facility.placeholders.get? ρ = some q) : q.isDirectory = p.isDirectory := by
  induction rest using List.reverseRecOn generalizing q with
  | nil =>
    rw [List.append_nil, hp] at hq
    rw [Option.some.inj hq]
  | append_singleton rest m ih =>
    obtain ⟨d, hd⟩ := Option.isSome_iff_exists.1 (hthere rest self_mem_inits_append)
    have hkind := ih (fun n hn => hmanaged n (List.mem_append_left _ hn))
      (fun part h => hthere part (mem_inits_append h)) hd
    rw [← List.append_assoc, run_append_singleton] at hq
    rw [kind_next (hmanaged m (List.mem_append_right _ List.mem_cons_self)) hd hq, hkind]

/-! ## The whole -/

/-- In every state that a run through the bridge comes to, with whatever refusals: a placeholder lies below a registered
root, and in that root or in a directory; it is the same kind of placeholder as long as it is there; and a connected root
is registered. If at no time one root lies below another, directories hold no content. -/
theorem placeholders_form_forest (ms : List (Move Facility.Move)) (hmanaged : ∀ m ∈ ms, m.isManaged = true) :
    (∀ ρ p, (run ms).bridge.facility.placeholders.get? ρ = some p →
      (∃ σ r, (run ms).bridge.facility.registrations.get? σ = some r ∧ σ <+: ρ ∧ σ ≠ ρ) ∧
      ((∃ r, (run ms).bridge.facility.registrations.get? ρ.dropLast = some r) ∨
        ∃ d, (run ms).bridge.facility.placeholders.get? ρ.dropLast = some d ∧ d.isDirectory = true)) ∧
    (∀ before rest ρ p q, ms = before ++ rest →
      (∀ part ∈ rest.inits, ((run (before ++ part)).bridge.facility.placeholders.get? ρ).isSome = true) →
      (run before).bridge.facility.placeholders.get? ρ = some p →
      (run ms).bridge.facility.placeholders.get? ρ = some q → q.isDirectory = p.isDirectory) ∧
    (AlwaysFlat ms → ∀ ρ p, (run ms).bridge.facility.placeholders.get? ρ = some p → p.isDirectory = true →
      p.content = none) ∧
    (∀ key c, (run ms).bridge.facility.connections.get? key = some c →
      ((run ms).bridge.facility.registration? c.root).isSome = true) := by
  have hforest := forest_run hmanaged
  refine ⟨fun ρ p hp => ⟨?_, ?_⟩, ?_, fun hflat ρ p => (hollow_run hmanaged hflat).bare, fun key c => ?_⟩
  · have hthere : (run ms).bridge.facility.kindAt ρ ≠ none := by simp [Facility.kindAt_of_get? hp]
    obtain ⟨σ, hσ, hbelow⟩ := hforest.below hthere
    obtain ⟨r, hr⟩ := Table.contains_iff.1 hσ
    exact ⟨σ, r, hr, hbelow⟩
  · have hthere : (run ms).bridge.facility.kindAt ρ ≠ none := by simp [Facility.kindAt_of_get? hp]
    exact (hforest.parent hthere).imp Table.contains_iff.1 Option.map_eq_some_iff.1
  · rintro before rest ρ p q rfl hthere hp hq
    exact kind_run (fun m hm => hmanaged m (List.mem_append_right _ hm)) hthere hp hq
  · obtain ⟨fms, hfms⟩ := exists_after ms
    rw [hfms]
    exact (Facility.anchored_after fms).registered

/-- A file is being fetched when its root is left; its place is a directory when the root is joined again, and the answer
to the old transfer comes too late. -/
def madeAgain : List (Move Facility.Move) :=
  [.elsewhere (.register ⟨"/r"⟩ (.new "r" "1")), .connect ⟨"/r/"⟩ none, .create ⟨"/r/."⟩ "d" (.ofText "d") 0 1 true,
    .create ⟨"/r/.."⟩ "x" (.ofText "x") 2 1 false, .create ⟨"/r//d"⟩ "f" (.ofText "f") 2 1 false,
    .elsewhere (.begin ⟨"/r/d/f"⟩), .deliver ⟨0x1001⟩ ⟨1⟩ (.data 0 [1]),
    .elsewhere (.planFault .unregister .accessDenied), .close 0, .unregister ⟨"/r"⟩, .unregister ⟨"/r"⟩,
    .elsewhere (.register ⟨"/r"⟩ (.new "r" "2")), .connect ⟨"/r"⟩ none, .create ⟨"/r"⟩ "d" (.ofText "d") 0 1 true,
    .create ⟨"/r/d"⟩ "f" (.ofText "f") 0 1 true, .deliver ⟨0x1001⟩ ⟨1⟩ (.data 1 [2]),
    .deliver ⟨0x1002⟩ ⟨1⟩ (.data 1 [2]), .update ⟨"/r/d/f"⟩ (.ofText "g") 2 1]

theorem placeholders_form_forest_madeAgain :
    (∀ m ∈ madeAgain, m.isManaged = true) ∧ AlwaysFlat madeAgain ∧
      ∃ p, (run madeAgain).bridge.facility.placeholder? ⟨"/r/d/f"⟩ = some p ∧ p.isDirectory = true ∧ p.content = none := by
  have hmanaged : ∀ m ∈ madeAgain, m.isManaged = true := by decide +kernel
  have hflat : AlwaysFlat madeAgain := by decide +kernel
  have hkind : (run madeAgain).bridge.facility.kindAt (Path.mk "/r/d/f").route = some true := by decide +kernel
  obtain ⟨p, hp, hdirectory⟩ := Option.map_eq_some_iff.1 hkind
  exact ⟨hmanaged, hflat, p, hp, hdirectory, (placeholders_form_forest madeAgain hmanaged).2.2.1 hflat _ p hp hdirectory⟩

end OnDemand.Usage
