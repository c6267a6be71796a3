import OnDemand.Filetime

/-!
# File times and back

Seconds come back from ticks as they were, except that they stop at the seconds of the first and the last tick. Ticks come
back from seconds as the beginning of their second, or as the first tick if their second begins before it.
-/

namespace OnDemand.Filetime

variable {s t f g : Int}

theorem toUnix_ofUnix (s : Int) : toUnix (ofUnix s) = max (toUnix Word.minSigned) (min s (toUnix Word.maxSigned)) := by
  simp only [toUnix, ofUnix, Word.clamp, Word.minSigned, Word.maxSigned, ticksPerSecond, epochDelta]
  omega

theorem ofUnix_toUnix_le (h : Word.minSigned ≤ f) : ofUnix (toUnix f) ≤ f := by
  simp only [toUnix, ofUnix, Word.clamp, ticksPerSecond]
  omega

theorem sub_ofUnix_toUnix_lt (h : f ≤ Word.maxSigned) : f - ofUnix (toUnix f) < ticksPerSecond := by
  simp only [toUnix, ofUnix, Word.clamp, ticksPerSecond]
  omega

theorem ofUnix_le_ofUnix (h : s ≤ t) : ofUnix s ≤ ofUnix t := by
  simp only [ofUnix, Word.clamp, ticksPerSecond]
  omega

theorem toUnix_le_toUnix (h : f ≤ g) : toUnix f ≤ toUnix g := by
  have hquotient : f / ticksPerSecond ≤ g / ticksPerSecond := Int.ediv_le_ediv (by decide) h
  exact Int.sub_le_sub_right hquotient epochDelta

/-! ## Within words -/

/-- A sum that stops at the bounds of words may be taken before the product that stops there. -/
theorem ofUnix_eq_clamp_mul (s : Int) : ofUnix s = Word.clamp (Word.clamp (s + epochDelta) * ticksPerSecond) := by
  simp only [ofUnix, Word.clamp, Word.minSigned, Word.maxSigned, ticksPerSecond]
  omega

theorem fitsSigned_quotient (h : Word.fitsSigned f = true) : Word.fitsSigned (f / ticksPerSecond) = true := by
  rw [Word.fitsSigned_iff] at h ⊢
  simp only [Word.minSigned, Word.maxSigned, ticksPerSecond] at *
  omega

theorem fitsSigned_toUnix (h : Word.fitsSigned f = true) : Word.fitsSigned (toUnix f) = true := by
  rw [Word.fitsSigned_iff] at h ⊢
  simp only [toUnix, Word.minSigned, Word.maxSigned, ticksPerSecond, epochDelta] at *
  omega

/-- Seconds go to ticks and come back clamped to the seconds of words; ticks come back as no later tick of their second;
both ways keep the order; and no word overflows, since going to ticks stops at the bounds at both of its steps and coming
back stays within them. -/
theorem seconds_embed_in_ticks :
    (∀ s, toUnix (ofUnix s) = max (toUnix Word.minSigned) (min s (toUnix Word.maxSigned))) ∧
    (∀ f, Word.fitsSigned f = true → ofUnix (toUnix f) ≤ f ∧ f - ofUnix (toUnix f) < 10000000) ∧
    (∀ s t, s ≤ t → ofUnix s ≤ ofUnix t) ∧ (∀ f g, f ≤ g → toUnix f ≤ toUnix g) ∧
    (∀ s, ofUnix s = Word.clamp (Word.clamp (s + epochDelta) * ticksPerSecond)) ∧
    ∀ f, Word.fitsSigned f = true →
      Word.fitsSigned (f / ticksPerSecond) = true ∧ Word.fitsSigned (toUnix f) = true := by
  refine ⟨toUnix_ofUnix, fun f h => ?_, fun s t => ofUnix_le_ofUnix, fun f g => toUnix_le_toUnix, ofUnix_eq_clamp_mul,
    fun f h => ?_⟩
  · obtain ⟨hfirst, hlast⟩ := Word.fitsSigned_iff.1 h
    exact ⟨ofUnix_toUnix_le hfirst, sub_ofUnix_toUnix_lt hlast⟩
  · exact ⟨fitsSigned_quotient h, fitsSigned_toUnix h⟩

/-- The second of the first tick begins before it, so the first tick is where it begins. -/
theorem seconds_embed_in_ticks_firstTick :
    Word.fitsSigned Word.minSigned = true ∧ toUnix Word.minSigned * ticksPerSecond < Word.minSigned ∧
      ofUnix (toUnix Word.minSigned) ≤ Word.minSigned ∧
      toUnix (ofUnix Word.minSigned) = toUnix Word.minSigned ∧ Word.fitsSigned (toUnix Word.minSigned) = true := by
  have hfits : Word.fitsSigned Word.minSigned = true := by decide
  obtain ⟨hback, hrounded, -, -, -, hword⟩ := seconds_embed_in_ticks
  refine ⟨hfits, by decide, (hrounded _ hfits).1, ?_, (hword _ hfits).2⟩
  rw [hback]
  decide

end OnDemand.Filetime
