import OnDemand.Main
import OnDemand.Session.Run
import OnDemand.Text.Utf16
import OnDemand.Proofs.Bridge.Creating
import OnDemand.Proofs.Bridge.Ending
import OnDemand.Proofs.Bridge.Forest
import OnDemand.Proofs.Bridge.Isolation
import OnDemand.Proofs.Bridge.Mirroring
import OnDemand.Proofs.Bridge.Racing
import OnDemand.Proofs.Bridge.Refusals
import OnDemand.Proofs.Bridge.Upkeep
import OnDemand.Proofs.Catalog.Grammar
import OnDemand.Proofs.Catalog.Lines
import OnDemand.Proofs.Catalog.Slashes
import OnDemand.Proofs.Facility.Provenance
import OnDemand.Proofs.Facility.Received
import OnDemand.Proofs.Hydration.Checked
import OnDemand.Proofs.Hydration.Owed
import OnDemand.Proofs.Reconcile.Confinement
import OnDemand.Proofs.Reconcile.Footprint
import OnDemand.Proofs.Reconcile.KindChange
import OnDemand.Proofs.Reconcile.Repeating
import OnDemand.Proofs.Service.Cycles
import OnDemand.Proofs.Service.Lifecycle
import OnDemand.Proofs.Text.Number
import OnDemand.Proofs.Text.Utf16
