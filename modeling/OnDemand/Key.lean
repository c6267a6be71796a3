import OnDemand.Table
import OnDemand.Text.Number

/-!
# Connection and transfer keys

Handles that the facility issues: one for each connection of a sync root, one for each outstanding fetch.
-/

namespace OnDemand

structure ConnectionKey where
  value : Int
deriving DecidableEq, Repr, Inhabited

structure TransferKey where
  value : Int
deriving DecidableEq, Repr, Inhabited

/-- A signed word in hexadecimal; a negative one as its two's complement. -/
def displayKey (n : Int) : String :=
  "0x" ++ String.ofList (Text.hex (n % 18446744073709551616).toNat)

namespace ConnectionKey

instance : ToString ConnectionKey := ⟨fun k => displayKey k.value⟩

instance : Ord ConnectionKey := ⟨compareOn value⟩

instance : Std.TransOrd ConnectionKey := inferInstanceAs (Std.TransCmp (compareOn value))

instance : Std.LawfulEqOrd ConnectionKey where
  compare_self {a} := (Std.ReflCmp.compare_self : compareOn value a a = .eq)
  eq_of_compare {a b} h := by
    obtain ⟨a⟩ := a
    obtain ⟨b⟩ := b
    have h : compare a b = .eq := h
    exact congrArg mk (Std.LawfulEqCmp.eq_of_compare h)

/-- A key up to `n` is not the next one. -/
theorem ne_next {key : ConnectionKey} {n : Int} (h : key.value ≤ n) : key ≠ ⟨n + 1⟩ := by
  rintro rfl
  exact Int.not_le.2 (Int.lt_add_one_of_le (Int.le_refl n)) h

end ConnectionKey

namespace TransferKey

instance : ToString TransferKey := ⟨fun k => displayKey k.value⟩

instance : Ord TransferKey := ⟨compareOn value⟩

instance : Std.TransOrd TransferKey := inferInstanceAs (Std.TransCmp (compareOn value))

instance : Std.LawfulEqOrd TransferKey where
  compare_self {a} := (Std.ReflCmp.compare_self : compareOn value a a = .eq)
  eq_of_compare {a b} h := by
    obtain ⟨a⟩ := a
    obtain ⟨b⟩ := b
    have h : compare a b = .eq := h
    exact congrArg mk (Std.LawfulEqCmp.eq_of_compare h)

end TransferKey

end OnDemand
