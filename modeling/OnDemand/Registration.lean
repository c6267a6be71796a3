/-!
# Sync root registrations

What the facility records for a registered directory. Every registration of this library carries the same
provider identity and the same policies.
-/

namespace OnDemand

/-- When files are hydrated. -/
inductive HydrationPolicy where
  | partly
  | progressive
  | full
  | alwaysFull
deriving DecidableEq, Repr, Inhabited

/-- How directories are populated. -/
inductive PopulationPolicy where
  | partly
  | full
  | alwaysFull
deriving DecidableEq, Repr, Inhabited

inductive InSyncPolicy where
  | trackAll
  | none
deriving DecidableEq, Repr, Inhabited

inductive HardLinkPolicy where
  | none
  | allowed
deriving DecidableEq, Repr, Inhabited

structure SyncPolicies where
  hydration : HydrationPolicy
  population : PopulationPolicy
  inSync : InSyncPolicy
  hardLink : HardLinkPolicy
deriving DecidableEq, Repr, Inhabited

/-- Whole files are hydrated, the namespace is populated eagerly, every change is tracked and hard links
are not supported. -/
def SyncPolicies.fixed : SyncPolicies := ⟨.full, .full, .trackAll, .none⟩

/-- The identity of this provider, as a UUID. -/
def providerUuid : String := "5f3c9a1e-7b24-4d8e-a6c1-2e9fb0d47c13"

structure Registration where
  name : String
  version : String
  provider : String
  policies : SyncPolicies
deriving DecidableEq, Repr, Inhabited

def Registration.new (name version : String) : Registration :=
  ⟨name, version, providerUuid, .fixed⟩

end OnDemand
