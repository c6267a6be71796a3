import OnDemand.Proofs.Facility.Calm
import OnDemand.Proofs.Facility.Forest
import OnDemand.Proofs.Filetime

/-!
# Creating a placeholder

Some conditions are checked by the bridge and others by the facility, each with a failure of its own. A placeholder is
created exactly if all of them are met, and the failure is that of the first one that is not.
-/

namespace OnDemand

namespace Facility

variable {f : Facility} {parent : Path} {σ : Route} {r : RegisteredRoot}

/-- A registered root is `parent`, or lies above it. -/
def Covers (parent : Path) (f : Facility) : Prop := ∃ r ∈ f.registrations.values, parent.startsWith r.path = true

/-- `parent` is a registered root, or a directory below one. -/
def Offers (parent : Path) (f : Facility) : Prop :=
  (f.registration? parent).isSome = true ∨
    f.Covers parent ∧ ∃ p, f.placeholder? parent = some p ∧ p.isDirectory = true

theorem isSome_coveringRoot?_iff : (f.coveringRoot? parent).isSome = true ↔ f.Covers parent :=
  List.find?_isSome

/-- Roots are registered under their own routes. -/
theorem written_after (ms : List Move) (h : (after ms).registrations.get? σ = some r) : r.path.route = σ := by
  induction ms using List.reverseRecOn generalizing σ r with
  | nil => cases h
  | append_singleton ms m ih =>
    rw [after_append_singleton] at h
    exact written_next ih (frame_next (after ms) m).roots h

/-- Where no root lies below another one, the root that covers `parent` is `parent` if that is registered. -/
theorem takes_iff_offers {ms : List Move} (hflat : (after ms).Flat) : (after ms).Takes parent ↔ (after ms).Offers parent := by
  have hholds : ∀ r, (after ms).holdsChildren r parent = true ↔
      r.path.route = parent.route ∨ ∃ p, (after ms).placeholder? parent = some p ∧ p.isDirectory = true := fun r => by
    rw [holdsChildren, Bool.or_eq_true, Path.same_iff, Option.any_eq_true]
  constructor
  · rintro ⟨r, hr, hparent⟩
    have hcovers : (after ms).Covers parent := isSome_coveringRoot?_iff.1 (by rw [hr]; rfl)
    obtain ⟨⟨σ, hσ⟩, -⟩ := coveringRoot?_eq_some hr
    rcases (hholds r).1 hparent with hroute | hdirectory
    · rw [written_after ms hσ] at hroute
      rw [hroute] at hσ
      exact .inl (Option.isSome_iff_exists.2 ⟨r, hσ⟩)
    · exact .inr ⟨hcovers, hdirectory⟩
  · rintro (hregistered | ⟨hcovers, hdirectory⟩)
    · obtain ⟨own, hown⟩ := Option.isSome_iff_exists.1 hregistered
      have hroute := written_after ms hown
      have hcovers : (after ms).Covers parent :=
        ⟨own, Table.mem_values.2 ⟨_, hown⟩, Path.startsWith_iff.2 (by simp only [hroute, List.prefix_refl])⟩
      obtain ⟨r, hr⟩ := Option.isSome_iff_exists.1 (isSome_coveringRoot?_iff.2 hcovers)
      obtain ⟨⟨σ, hσ⟩, hprefix⟩ := coveringRoot?_eq_some hr
      rw [written_after ms hσ] at hprefix
      have hσ' : σ ∈ (after ms).registrations.keys := Table.mem_keys.2 (Table.contains_iff.2 ⟨r, hσ⟩)
      have hown' : parent.route ∈ (after ms).registrations.keys := Table.mem_keys.2 (Table.contains_iff.2 ⟨own, hown⟩)
      have hsame : σ = parent.route := hflat σ hσ' _ hown' hprefix
      exact ⟨r, hr, (hholds r).2 (.inl ((written_after ms hσ).trans hsame))⟩
    · obtain ⟨r, hr⟩ := Option.isSome_iff_exists.1 (isSome_coveringRoot?_iff.2 hcovers)
      exact ⟨r, hr, (hholds r).2 (.inr hdirectory)⟩

end Facility

/-- The placeholder is as it was created: with this identity, and this size unless it is a directory; all its times are
one, which comes back as `mtime` within the bounds of file times; it is in sync and has no content yet. -/
structure Placeholder.StartsAs (identity : FileIdentity) (size : Nat) (mtime : Int) (directory : Bool) (p : Placeholder) :
    Prop where
  identity : p.identity = identity
  kind : p.isDirectory = directory
  size : p.metadata.size = if directory then 0 else (size : Int)
  accessed : p.metadata.accessed = p.metadata.created
  written : p.metadata.written = p.metadata.created
  changed : p.metadata.changed = p.metadata.created
  time : Filetime.toUnix p.metadata.created =
    max (Filetime.toUnix Word.minSigned) (min mtime (Filetime.toUnix Word.maxSigned))
  inSync : p.inSync = true
  content : p.content = none
  inUse : p.inUse = false
  onDemandPopulation : p.onDemandPopulation = !directory

namespace Bridge

variable {f : Facility} {b : Bridge Facility} {parent : Path} {name : String} {identity : FileIdentity} {size : Nat}
  {mtime : Int} {directory : Bool}

theorem startsAs_create (path : Path) :
    (Placeholder.create path (.of name identity size mtime directory)).StartsAs identity size mtime directory where
  identity := rfl
  kind := Metadata.isDirectory_initial ..
  size := rfl
  accessed := rfl
  written := rfl
  changed := rfl
  time := Filetime.toUnix_ofUnix mtime
  inSync := rfl
  content := rfl
  inUse := rfl
  onDemandPopulation := rfl

/-- What the last component of a placeholder's path can be. -/
def IsName (name : String) : Prop :=
  name ≠ "" ∧ name ≠ "." ∧ name ≠ ".." ∧ '/' ∉ name.toList ∧ '\\' ∉ name.toList

/-- All that creating a placeholder takes, in the order in which it is checked. -/
structure Creatable (parent : Path) (name : String) (identity : FileIdentity) (size : Nat) (f : Facility) : Prop where
  called : IsName name
  identified : identity.length ≤ 4096
  sized : size ≤ Word.maxSigned
  offered : f.Offers parent
  vacant : f.placeholders.get? (parent.route ++ [.name name]) = none

/-- The failure of the first of these conditions that is not met. -/
inductive FirstUnmet (parent : Path) (name : String) (identity : FileIdentity) (size : Nat) (f : Facility) :
    PlaceholderError → Prop where
  | called (h : ¬IsName name) :
      FirstUnmet parent name identity size f (.metadataRejected (parent.join name) .invalidArgument)
  | identified (hname : IsName name) (h : ¬identity.length ≤ 4096) :
      FirstUnmet parent name identity size f (.metadataRejected (parent.join name) .invalidArgument)
  | sized (hname : IsName name) (hidentity : identity.length ≤ 4096) (h : ¬size ≤ Word.maxSigned) :
      FirstUnmet parent name identity size f (.metadataRejected (parent.join name) .invalidArgument)
  | offered (hname : IsName name) (hidentity : identity.length ≤ 4096) (hsize : size ≤ Word.maxSigned)
      (h : ¬f.Offers parent) (status : Status)
      (hstatus : f.Covers parent ∧ status = .pathNotFound ∨ ¬f.Covers parent ∧ status = .notACloudFile) :
      FirstUnmet parent name identity size f (.notFound (parent.join name) status)
  | vacant (hname : IsName name) (hidentity : identity.length ≤ 4096) (hsize : size ≤ Word.maxSigned)
      (hparent : f.Offers parent) (h : f.placeholders.get? (parent.route ++ [.name name]) ≠ none) :
      FirstUnmet parent name identity size f (.alreadyExists (parent.join name) .alreadyExists)

theorem isValidName_iff_isName : isValidName name = true ↔ IsName name := isValidName_iff

/-- What is refused without asking the facility fails by its name, its identity or its size. -/
theorem firstUnmet_of_not_admitted (h : ¬(isValidName name = true ∧ fitsFacility identity size = true)) (f : Facility) :
    FirstUnmet parent name identity size f (.metadataRejected (parent.join name) .invalidArgument) := by
  rw [isValidName_iff_isName, fitsFacility_iff] at h
  by_cases hname : IsName name
  · by_cases hidentity : identity.length ≤ 4096
    · exact .sized hname hidentity fun hsize => h ⟨hname, hidentity, hsize⟩
    · exact .identified hname hidentity
  · exact .called hname

theorem status_orphan (f : Facility) (parent : Path) :
    f.Covers parent ∧ f.orphanStatus parent = .pathNotFound ∨
      ¬f.Covers parent ∧ f.orphanStatus parent = .notACloudFile := by
  rw [Facility.orphanStatus, ← Facility.isSome_coveringRoot?_iff]
  split
  · rename_i hcovers
    exact .inl ⟨hcovers, rfl⟩
  · rename_i hcovers
    exact .inr ⟨hcovers, rfl⟩

section Run

variable {ms : List Facility.Move} {live : LiveTable} (hflat : (Facility.after ms).Flat)
  (hfault : (Facility.after ms).faults .create = none)

include hflat hfault

theorem create_of_creatable (h : Creatable parent name identity size (Facility.after ms)) (mtime : Int)
    (directory : Bool) :
    create parent name identity size mtime directory (⟨Facility.after ms, live⟩ : Bridge Facility) =
      (.ok (), put (parent.join name) (.create (parent.join name) (.of name identity size mtime directory))
        ⟨Facility.after ms, live⟩) := by
  have hname : isValidName name = true := isValidName_iff_isName.2 h.called
  have hnone : (Facility.after ms).placeholder? (parent.join name) = none := by
    rw [Facility.placeholder?, Path.route_join_valid hname]
    exact h.vacant
  exact create_new hfault hname (fitsFacility_iff.2 ⟨h.identified, h.sized⟩)
    ((Facility.takes_iff_offers hflat).2 h.offered) hnone mtime directory

theorem create_of_not_creatable (h : ¬Creatable parent name identity size (Facility.after ms)) (mtime : Int)
    (directory : Bool) :
    ∃ failure, FirstUnmet parent name identity size (Facility.after ms) failure ∧
      create parent name identity size mtime directory (⟨Facility.after ms, live⟩ : Bridge Facility) =
        (.error failure, ⟨Facility.after ms, live⟩) := by
  by_cases hadmitted : isValidName name = true ∧ fitsFacility identity size = true
  · obtain ⟨hname, hfits⟩ := hadmitted
    have hcalled : IsName name := isValidName_iff_isName.1 hname
    obtain ⟨hidentity, hsize⟩ := fitsFacility_iff.1 hfits
    by_cases hoffers : (Facility.after ms).Offers parent
    · have hsome : (Facility.after ms).placeholders.get? (parent.route ++ [.name name]) ≠ none := fun hnone =>
        h ⟨hcalled, hidentity, hsize, hoffers, hnone⟩
      obtain ⟨p, hp⟩ : ∃ p, (Facility.after ms).placeholder? (parent.join name) = some p := by
        rw [Facility.placeholder?, Path.route_join_valid hname]
        exact Option.ne_none_iff_exists'.1 hsome
      exact ⟨_, .vacant hcalled hidentity hsize hoffers hsome,
        create_taken hfault hname hfits ((Facility.takes_iff_offers hflat).2 hoffers) hp mtime directory⟩
    · exact ⟨_, .offered hcalled hidentity hsize hoffers _ (status_orphan _ parent),
        create_orphan hfault hname hfits (mt (Facility.takes_iff_offers hflat).1 hoffers) mtime directory⟩
  · exact ⟨_, firstUnmet_of_not_admitted hadmitted _, create_refused hadmitted⟩

end Run

/-- In every state of the facility without a root below another one, and without a planned refusal: a placeholder is
created exactly if all conditions are met. It is then at its place, in which nothing stood, and everything else is as it
was; otherwise nothing has changed, and the failure is that of the first condition that is not met. -/
theorem create_ok_iff_creatable (ms : List Facility.Move) (hflat : (Facility.after ms).Flat)
    (hfault : (Facility.after ms).faults .create = none) (live : LiveTable) (parent : Path) (name : String)
    (identity : FileIdentity) (size : Nat) (mtime : Int) (directory : Bool) :
    let f := Facility.after ms
    let result := create parent name identity size mtime directory (⟨f, live⟩ : Bridge Facility)
    (result.1 = .ok () ↔ Creatable parent name identity size f) ∧
    (result.1 = .ok () → ∃ p : Placeholder, p.path = parent.join name ∧ p.StartsAs identity size mtime directory ∧
      result.2 = ⟨{ f with placeholders := f.placeholders.insert (parent.route ++ [.name name]) p }, live⟩) ∧
    ∀ failure, result.1 = .error failure → result.2 = ⟨f, live⟩ ∧ FirstUnmet parent name identity size f failure := by
  intro f result
  by_cases h : Creatable parent name identity size f
  · have hresult : result = _ := create_of_creatable hflat hfault h mtime directory
    have hroute := Path.route_join_valid (p := parent) (isValidName_iff_isName.2 h.called)
    rw [hresult]
    refine ⟨iff_of_true rfl h, fun _ => ?_, fun failure herror => by cases herror⟩
    exact ⟨.create (parent.join name) (.of name identity size mtime directory), rfl, startsAs_create _, by rw [put, hroute]⟩
  · obtain ⟨failure, hfailure, hrefused⟩ := create_of_not_creatable hflat hfault h mtime directory
    have hresult : result = _ := hrefused
    rw [hresult]
    have hnot : ¬(Except.error failure : Except PlaceholderError Unit) = .ok () := fun hok => by cases hok
    refine ⟨iff_of_false hnot h, fun hok => absurd hok hnot, fun failure' herror => ⟨rfl, ?_⟩⟩
    rwa [← Except.error.inj herror]

/-- A file at the bounds of what words hold, in a directory that is written in a roundabout way. -/
theorem create_ok_iff_creatable_atBounds :
    let f := Facility.after
      [.register ⟨"/r"⟩ (.new "r" "1"), .create ⟨"/r/"⟩ (.of "d" (.ofText "d") 0 1 true)]
    let result := create ⟨"/r/.//d/."⟩ "f" ⟨[0xff]⟩ 9223372036854775807 (-9223372036854775808) false
      (⟨f, .empty⟩ : Bridge Facility)
    f.Flat ∧ f.faults .create = none ∧ Creatable ⟨"/r/.//d/."⟩ "f" ⟨[0xff]⟩ 9223372036854775807 f ∧
      ∃ p : Placeholder, p.StartsAs ⟨[0xff]⟩ 9223372036854775807 (-9223372036854775808) false ∧
        result.2.facility.placeholders.get? [.root, .name "r", .name "d", .name "f"] = some p := by
  intro f result
  have hflat : f.Flat := by decide +kernel
  have hok : result.1 = .ok () := by decide +kernel
  obtain ⟨hcreatable, hcreated, -⟩ := create_ok_iff_creatable _ hflat rfl .empty ⟨"/r/.//d/."⟩ "f" ⟨[0xff]⟩
    9223372036854775807 (-9223372036854775808) false
  obtain ⟨p, -, hstarts, hresult⟩ := hcreated hok
  have hroute : (Path.mk "/r/.//d/.").route ++ [.name "f"] = [.root, .name "r", .name "d", .name "f"] := by decide +kernel
  refine ⟨hflat, rfl, hcreatable.1 hok, p, hstarts, ?_⟩
  rw [hresult, ← hroute]
  exact Table.get?_insert_self

end Bridge

end OnDemand
