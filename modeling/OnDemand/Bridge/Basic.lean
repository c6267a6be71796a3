import OnDemand.Bridge.Error
import OnDemand.Bridge.Live
import OnDemand.Facility.Calls

/-!
# The bridge

One facility and the connections opened on it through this bridge. The operations of the bridge check what the
facility need not be asked about, make one call, and sort a refusal into its cause.
-/

namespace OnDemand

structure Bridge (σ : Type) where
  facility : σ
  live : LiveTable

namespace Bridge

variable {σ α ε : Type}

/-- An operation of the bridge: an answer or a failure, and the next state. -/
abbrev Act (σ ε α : Type) := StateM (Bridge σ) (Except ε α)

def ofFacility (facility : σ) : Bridge σ := ⟨facility, .empty⟩

/-- Makes one call on the facility and sorts its refusal. -/
def ask (call : Call σ α) (sort : Status → ε) : Act σ ε α := fun b =>
  let (answer, facility) := call b.facility
  (answer.mapError sort, { b with facility })

/-- An answer without asking the facility. -/
def refuse (e : ε) : Act σ ε α := fun b => (.error e, b)

end Bridge

end OnDemand
