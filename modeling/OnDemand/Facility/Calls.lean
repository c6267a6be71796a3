import OnDemand.Facility.Callback
import OnDemand.Placeholder
import OnDemand.Registration
import OnDemand.Transfer.Operation

/-!
# The facility

The eight calls through which everything reaches the facility. Each is one attempt, and a refusal comes back
as the facility's own status.
-/

namespace OnDemand

/-- A call on a facility with states `σ`. -/
abbrev Call (σ α : Type) := StateM σ (Except Status α)

class CloudFacility (σ : Type) where
  /-- Records a registration, in place of an earlier one of the same root. -/
  registerRoot : Path → Registration → Call σ Unit
  unregisterRoot : Path → Call σ Unit
  connectRoot : Path → Handler → Call σ ConnectionKey
  disconnectRoot : ConnectionKey → Call σ Unit
  /-- Creates one placeholder under a parent directory. -/
  createPlaceholder : Path → NewPlaceholder → Call σ Unit
  /-- Replaces the metadata and the identity of a placeholder and marks it in sync. -/
  updatePlaceholder : Path → Metadata → FileIdentity → Call σ Unit
  /-- Evicts the local content of a placeholder. -/
  dehydratePlaceholder : Path → Call σ Unit
  executeTransfer : TransferOperation → Call σ Unit

end OnDemand
