import OnDemand.Bridge.Basic

/-!
# Placeholders through the bridge

Names with a separator, the names `.` and `..`, identities over the limit and sizes beyond a signed word are
refused without asking the facility.
-/

namespace OnDemand.Bridge

variable {σ : Type} [CloudFacility σ]

/-- Whether `name` can be the last component of a placeholder's path. -/
def isValidName (name : String) : Bool :=
  name ≠ "" && !name.toList.contains '/' && !name.toList.contains '\\' && name ≠ "." && name ≠ ".."

theorem isValidName_iff {name : String} :
    isValidName name = true ↔
      name ≠ "" ∧ name ≠ "." ∧ name ≠ ".." ∧ '/' ∉ name.toList ∧ '\\' ∉ name.toList := by
  simp only [isValidName, Bool.and_eq_true, decide_eq_true_eq, Bool.not_eq_true', List.contains_eq_mem,
    decide_eq_false_iff_not]
  constructor
  · rintro ⟨⟨⟨⟨hne, hslash⟩, hback⟩, hdot⟩, hup⟩
    exact ⟨hne, hdot, hup, hslash, hback⟩
  · rintro ⟨hne, hdot, hup, hslash, hback⟩
    exact ⟨⟨⟨⟨hne, hslash⟩, hback⟩, hdot⟩, hup⟩

def fitsFacility (identity : FileIdentity) (size : Nat) : Bool :=
  identity.fits && Word.fitsSigned size

theorem fitsFacility_iff {identity : FileIdentity} {size : Nat} :
    fitsFacility identity size = true ↔ identity.length ≤ FileIdentity.maxLength ∧ size ≤ Word.maxSigned := by
  have hleast : Word.minSigned ≤ size := Int.le_trans (by decide) (Int.natCast_nonneg size)
  rw [fitsFacility, Bool.and_eq_true, Word.fitsSigned_iff, FileIdentity.fits, decide_eq_true_iff, FileIdentity.length]
  exact and_congr_right fun _ => and_iff_right hleast

def create (parent : Path) (name : String) (identity : FileIdentity) (size : Nat) (mtime : Int) (directory : Bool) :
    Act σ PlaceholderError Unit :=
  let path := parent.join name
  if isValidName name && fitsFacility identity size then
    ask (CloudFacility.createPlaceholder parent (.of name identity size mtime directory)) (.classify path)
  else refuse (.metadataRejected path .invalidArgument)

def update (path : Path) (identity : FileIdentity) (size : Nat) (mtime : Int) : Act σ PlaceholderError Unit :=
  if fitsFacility identity size then
    ask (CloudFacility.updatePlaceholder path (.amendment size mtime) identity) (.classify path)
  else refuse (.metadataRejected path .invalidArgument)

def dehydrate (path : Path) : Act σ PlaceholderError Unit :=
  ask (CloudFacility.dehydratePlaceholder path) (.classify path)

variable {b : Bridge σ} {parent path : Path} {name : String} {identity : FileIdentity} {size : Nat} {mtime : Int}
  {directory : Bool}

theorem create_refused (h : ¬(isValidName name = true ∧ fitsFacility identity size = true)) :
    create parent name identity size mtime directory b =
      (.error (.metadataRejected (parent.join name) .invalidArgument), b) := by
  have hchecks : ¬((isValidName name && fitsFacility identity size) = true) := by rwa [Bool.and_eq_true]
  simp only [create, if_neg hchecks, refuse]

theorem update_refused (h : ¬fitsFacility identity size = true) :
    update path identity size mtime b = (.error (.metadataRejected path .invalidArgument), b) := by
  simp only [update, if_neg h, refuse]

end OnDemand.Bridge
