import OnDemand.Facility.Calls

/-!
# A facility with a record of its calls

Every call is passed on and noted together with its answer, in the order of the calls.
-/

namespace OnDemand

inductive Call.Note where
  | register (root : Path) (registration : Registration) (refusal : Option Status)
  | unregister (root : Path) (refusal : Option Status)
  | connect (root : Path) (answer : Except Status ConnectionKey)
  | disconnect (key : ConnectionKey) (refusal : Option Status)
  | create (parent : Path) (new : NewPlaceholder) (refusal : Option Status)
  | update (path : Path) (metadata : Metadata) (identity : FileIdentity) (refusal : Option Status)
  | dehydrate (path : Path) (refusal : Option Status)
  | execute (operation : TransferOperation) (refusal : Option Status)

structure Recorded (σ : Type) where
  facility : σ
  notes : List Call.Note

namespace Recorded

variable {σ : Type}

def refusal? {α : Type} : Except Status α → Option Status
  | .ok _ => none
  | .error status => some status

/-- Runs `call` and appends the note made of its answer. -/
def noting {α : Type} (call : Call σ α) (note : Except Status α → Call.Note) : Call (Recorded σ) α := fun r =>
  let (answer, facility) := call r.facility
  (answer, ⟨facility, r.notes ++ [note answer]⟩)

instance [CloudFacility σ] : CloudFacility (Recorded σ) where
  registerRoot root registration :=
    noting (CloudFacility.registerRoot root registration) fun a => .register root registration (refusal? a)
  unregisterRoot root := noting (CloudFacility.unregisterRoot root) fun a => .unregister root (refusal? a)
  connectRoot root handler := noting (CloudFacility.connectRoot root handler) fun a => .connect root a
  disconnectRoot key := noting (CloudFacility.disconnectRoot key) fun a => .disconnect key (refusal? a)
  createPlaceholder parent new :=
    noting (CloudFacility.createPlaceholder parent new) fun a => .create parent new (refusal? a)
  updatePlaceholder path metadata identity :=
    noting (CloudFacility.updatePlaceholder path metadata identity) fun a => .update path metadata identity (refusal? a)
  dehydratePlaceholder path := noting (CloudFacility.dehydratePlaceholder path) fun a => .dehydrate path (refusal? a)
  executeTransfer operation :=
    noting (CloudFacility.executeTransfer operation) fun a => .execute operation (refusal? a)

end Recorded

end OnDemand
