import OnDemand.Transfer.Coverage

/-!
# The ranges of a transfer stay apart

Adding a range keeps the ranges in order, with a gap between any two, and within the length of the transfer. Such
ranges say that the whole has come, in their first one, exactly if every position is covered.
-/

namespace OnDemand.Coverage

/-- In order, with gaps, and none beyond `length`. An empty range is allowed. -/
structure Canonical (length : Nat) (c : Coverage) : Prop where
  separated : c.Separated
  ordered : ∀ s ∈ c, s.first ≤ s.stop
  within : ∀ s ∈ c, s.stop ≤ length

theorem canonical_nil (length : Nat) : Canonical length [] :=
  ⟨.nil, by simp, by simp⟩

/-! ## Adding a range -/

theorem lt_first_add {s : Span} {c : Coverage} {b : Nat} (hs : b < s.first) (hc : ∀ t ∈ c, b < t.first) :
    ∀ t ∈ add s c, b < t.first := by
  induction c generalizing s with
  | nil => simpa [add] using hs
  | cons u rest ih =>
    have hu := hc u (by simp)
    have hrest : ∀ t ∈ rest, b < t.first := fun t ht => hc t (by simp [ht])
    simp only [add]
    split
    · intro t ht
      rcases List.mem_cons.1 ht with rfl | ht
      · exact hs
      · exact hc t ht
    · split
      · intro t ht
        rcases List.mem_cons.1 ht with rfl | ht
        · exact hu
        · exact ih hs hrest t ht
      · exact ih (by simp only; omega) hrest

theorem separated_add {s : Span} {c : Coverage} (hs : s.first ≤ s.stop) (hc : c.Separated)
    (ho : ∀ t ∈ c, t.first ≤ t.stop) : (add s c).Separated := by
  induction c generalizing s with
  | nil => simp [add, Separated]
  | cons u rest ih =>
    obtain ⟨hu, hrest⟩ := List.pairwise_cons.1 hc
    have hou := ho u (by simp)
    have horest : ∀ t ∈ rest, t.first ≤ t.stop := fun t ht => ho t (by simp [ht])
    simp only [add]
    split
    · rename_i hlt
      refine List.pairwise_cons.2 ⟨fun t ht => ?_, hc⟩
      rcases List.mem_cons.1 ht with rfl | ht
      · exact hlt
      · have := hu t ht
        omega
    · split
      · rename_i hlt
        exact List.pairwise_cons.2 ⟨lt_first_add hlt hu, ih hs hrest horest⟩
      · exact ih (by simp only; omega) hrest horest

theorem mem_add {s t : Span} {c : Coverage} {P : Span → Prop} (hs : P s) (hc : ∀ u ∈ c, P u)
    (join : ∀ u v, P u → P v → P ⟨min u.first v.first, max u.stop v.stop⟩) (h : t ∈ add s c) : P t := by
  induction c generalizing s with
  | nil =>
    obtain rfl : t = s := by simpa [add] using h
    exact hs
  | cons u rest ih =>
    have hu := hc u (by simp)
    have hrest : ∀ v ∈ rest, P v := fun v hv => hc v (by simp [hv])
    simp only [add] at h
    split at h
    · rcases List.mem_cons.1 h with rfl | h
      · exact hs
      · exact hc t h
    · split at h
      · rcases List.mem_cons.1 h with rfl | h
        · exact hu
        · exact ih hs hrest h
      · exact ih (join s u hs hu) hrest h

theorem Canonical.add {length : Nat} {s : Span} {c : Coverage} (h : c.Canonical length) (hs : s.first ≤ s.stop)
    (hl : s.stop ≤ length) : (c.add s).Canonical length where
  separated := separated_add hs h.separated h.ordered
  ordered _ ht := mem_add hs h.ordered (fun u v hu hv => by simp only; omega) ht
  within _ ht := mem_add (P := fun t => t.stop ≤ length) hl h.within (fun u v hu hv => by simp only; omega) ht

/-! ## The whole -/

theorem covers_of_isComplete {length : Nat} {c : Coverage} (h : c.isComplete length = true) {i : Nat}
    (hi : i < length) : c.covers i := by
  simp only [isComplete, Bool.or_eq_true, decide_eq_true_eq] at h
  rcases h with h | h
  · omega
  · exact ⟨⟨0, length⟩, List.mem_of_mem_head? h, Nat.zero_le i, hi⟩

/-- The ranges lie apart, so that the one that covers the first position has to cover the last one as well. -/
theorem isComplete_of_covers {length : Nat} {c : Coverage} (h : c.Canonical length)
    (hall : ∀ i < length, c.covers i) : c.isComplete length = true := by
  by_cases hlen : length = 0
  · simp [isComplete, hlen]
  obtain ⟨s, hs, h0, hstop⟩ := hall 0 (by omega)
  match c, h with
  | t :: rest, h =>
    obtain ⟨ht, -⟩ := List.pairwise_cons.1 h.separated
    -- A later range starts beyond the first one's end.
    have hfirst : ∀ i, t.stop ≤ i → covers (t :: rest) i → t.stop < i := by
      rintro i hi ⟨u, hu, hui, hiu⟩
      rcases List.mem_cons.1 hu with rfl | hu
      · omega
      · have := ht u hu
        omega
    have hst : s = t := by
      rcases List.mem_cons.1 hs with rfl | hs
      · rfl
      · have := ht s hs
        omega
    subst hst
    have hfull : s.stop = length := by
      have hle := h.within s (by simp)
      by_cases hlt : s.stop < length
      · exact absurd (hfirst s.stop (Nat.le_refl _) (hall s.stop hlt)) (Nat.lt_irrefl _)
      · omega
    obtain ⟨first, stop⟩ := s
    simp only at h0 hfull
    simp [isComplete, hfull, Nat.le_zero.1 h0]

theorem isComplete_iff {length : Nat} {c : Coverage} (h : c.Canonical length) :
    c.isComplete length = true ↔ ∀ i < length, c.covers i :=
  ⟨fun hc _ hi => covers_of_isComplete hc hi, isComplete_of_covers h⟩

end OnDemand.Coverage
