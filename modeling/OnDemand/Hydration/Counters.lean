/-!
# Hydration counters

What has become of the requests of one channel. An answer that ends in a failure counts as answered and as
failed; an answer that the facility would not take counts as abandoned.
-/

namespace OnDemand

structure Counters where
  arrived : Nat
  dispatched : Nat
  rejected : Nat
  answered : Nat
  failed : Nat
  abandoned : Nat
  cancelled : Nat
deriving DecidableEq, Repr, Inhabited

/-- How the answer to a request ended. -/
inductive Conclusion where
  | answered
  | failed
  | abandoned
deriving DecidableEq, Repr, Inhabited

namespace Counters

def zero : Counters := ⟨0, 0, 0, 0, 0, 0, 0⟩

def arrive (c : Counters) : Counters := { c with arrived := c.arrived + 1 }

def dispatch (c : Counters) : Counters := { c with dispatched := c.dispatched + 1 }

def reject (c : Counters) : Counters := { c with rejected := c.rejected + 1 }

def cancel (c : Counters) : Counters := { c with cancelled := c.cancelled + 1 }

def conclude (c : Counters) : Conclusion → Counters
  | .answered => { c with answered := c.answered + 1 }
  | .failed => { c with answered := c.answered + 1, failed := c.failed + 1 }
  | .abandoned => { c with abandoned := c.abandoned + 1 }

end Counters

end OnDemand
