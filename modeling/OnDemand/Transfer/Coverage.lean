/-!
# Covered ranges

The positions of a transfer that have been received, as ranges in increasing order with a gap between any
two. A new range swallows every range that it overlaps or touches.
-/

namespace OnDemand

/-- The positions `first ≤ i < stop`. -/
structure Span where
  first : Nat
  stop : Nat
deriving DecidableEq, Repr, Inhabited

abbrev Coverage := List Span

namespace Coverage

def covers (c : Coverage) (i : Nat) : Prop := ∃ s ∈ c, s.first ≤ i ∧ i < s.stop

/-- In increasing order, with a gap between any two ranges. -/
def Separated : Coverage → Prop := List.Pairwise fun s t => s.stop < t.first

def add (s : Span) : Coverage → Coverage
  | [] => [s]
  | t :: rest =>
    if s.stop < t.first then s :: t :: rest
    else if t.stop < s.first then t :: add s rest
    else add ⟨min s.first t.first, max s.stop t.stop⟩ rest

/-- A range that ends before it starts could swallow others without covering them, hence the hypotheses. -/
theorem covers_add {s : Span} {c : Coverage} (hs : s.first ≤ s.stop) (hc : ∀ t ∈ c, t.first ≤ t.stop) (i : Nat) :
    covers (add s c) i ↔ (s.first ≤ i ∧ i < s.stop) ∨ covers c i := by
  induction c generalizing s with
  | nil => simp [add, covers]
  | cons t rest ih =>
    have ht := hc t (by simp)
    have hrest : ∀ u ∈ rest, u.first ≤ u.stop := fun u hu => hc u (by simp [hu])
    have hcons : ∀ u c, covers (u :: c) i ↔ (u.first ≤ i ∧ i < u.stop) ∨ covers c i := by simp [covers]
    simp only [add]
    split
    · rw [hcons]
    · split
      · rw [hcons, hcons, ih hs hrest]
        grind
      · rw [ih (by simp only; omega) hrest, hcons]
        simp only
        grind

/-- Whether every position below `length` is covered, read off the first range. -/
def isComplete (c : Coverage) (length : Nat) : Bool :=
  length = 0 || c.head? = some ⟨0, length⟩

end Coverage

end OnDemand
