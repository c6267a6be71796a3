import OnDemand.Table

/-!
# Looking a key up after a change

The operations on a table, at the key they are about and at every other key.
-/

namespace OnDemand.Table

variable {κ α β : Type} [Ord κ] [Std.TransOrd κ] [Std.LawfulEqOrd κ] {t : Table κ α} {k j : κ} {a b : α}

@[simp] theorem get?_insert_self : (t.insert k a).get? k = some a := by
  rw [get?_insert, if_pos (Std.ReflCmp.compare_self)]

theorem get?_insert_of_ne (h : j ≠ k) : (t.insert k a).get? j = t.get? j := by
  rw [get?_insert, if_neg fun he => h (Std.LawfulEqOrd.eq_of_compare he)]

@[simp] theorem get?_erase_self : (t.erase k).get? k = none := by
  rw [get?_erase, if_pos (Std.ReflCmp.compare_self)]

theorem get?_erase_of_ne (h : j ≠ k) : (t.erase k).get? j = t.get? j := by
  rw [get?_erase, if_neg fun he => h (Std.LawfulEqOrd.eq_of_compare he)]

theorem get?_erase_eq_some : (t.erase k).get? j = some a ↔ j ≠ k ∧ t.get? j = some a := by
  by_cases h : j = k
  · subst h
    simp
  · simp [get?_erase_of_ne h, h]

@[simp] theorem get?_modify_self {f : α → α} : (t.modify k f).get? k = (t.get? k).map f := by
  rw [get?_modify, if_pos (Std.ReflCmp.compare_self)]

theorem get?_modify_of_ne {f : α → α} (h : j ≠ k) : (t.modify k f).get? j = t.get? j := by
  rw [get?_modify, if_neg fun he => h (Std.LawfulEqOrd.eq_of_compare he)]

/-- After an insertion a value stands at its key, or stood there before. -/
theorem get?_insert_cases (h : (t.insert k a).get? j = some b) : (j = k ∧ b = a) ∨ (j ≠ k ∧ t.get? j = some b) := by
  rw [get?_insert] at h
  split at h
  · rename_i hjk
    exact .inl ⟨Std.LawfulEqOrd.eq_of_compare hjk, (Option.some.inj h).symm⟩
  · rename_i hjk
    exact .inr ⟨fun he => hjk (he ▸ Std.ReflCmp.compare_self), h⟩

theorem mem_values : a ∈ t.values ↔ ∃ k, t.get? k = some a := by
  simp only [values, List.mem_map, ← mem_toList, Prod.exists, exists_eq_right]

omit [Std.TransOrd κ] [Std.LawfulEqOrd κ] in
theorem contains_iff : t.contains k = true ↔ ∃ a, t.get? k = some a := by
  rw [contains, Option.isSome_iff_exists]

theorem mem_keys : k ∈ t.keys ↔ t.contains k = true := by
  rw [contains_iff]
  simp only [keys, List.mem_map, ← mem_toList, Prod.exists, exists_eq_right, exists_and_right]

omit [Std.LawfulEqOrd κ] in
theorem nodup_keys : t.keys.Nodup := by
  rw [keys, List.Nodup, List.pairwise_map]
  refine t.increasing.imp fun {x y} hlt he => ?_
  have heq : compare x.1 y.1 = .eq := he ▸ Std.ReflCmp.compare_self
  rw [heq] at hlt
  cases hlt

/-! ## How many keys there are -/

omit [Std.LawfulEqOrd κ] in
theorem length_insertList {l : List (κ × α)} (h : l.Pairwise fun a b => compare a.1 b.1 = .lt) :
    (insertList k a l).length = l.length + (lookupList k l).elim 1 fun _ => 0 := by
  induction l with
  | nil => rfl
  | cons e rest ih =>
    obtain ⟨i, b⟩ := e
    obtain ⟨hlt, hrest⟩ := List.pairwise_cons.1 h
    simp only [insertList, lookupList]
    split <;> rename_i hki
    · -- All keys that follow are greater still.
      rw [if_neg (by rw [hki]; decide), lookupList_eq_none fun e he => Std.TransCmp.lt_trans hki (hlt e he)]
      rfl
    · rw [if_pos hki]
      rfl
    · rw [if_neg (by rw [hki]; decide), List.length_cons, ih hrest, List.length_cons, Nat.add_right_comm]

theorem size_insert_of_get?_none (h : t.get? k = none) : (t.insert k a).size = t.size + 1 := by
  have hlookup : lookupList k t.toList = none := h
  rw [size, insert, length_insertList t.increasing, hlookup]
  rfl

theorem size_insert_of_get?_some (h : t.get? k = some b) : (t.insert k a).size = t.size := by
  have hlookup : lookupList k t.toList = some b := h
  rw [size, insert, length_insertList t.increasing, hlookup]
  rfl

/-! ## Changes that come to the same -/

variable {f : α → α}

theorem insert_of_get? (h : t.get? k = some a) : t.insert k a = t :=
  ext_get? fun j => by
    by_cases hj : j = k
    · subst hj
      rw [get?_insert_self, h]
    · rw [get?_insert_of_ne hj]

theorem modify_of_get? (h : t.get? k = some a) : t.modify k f = t.insert k (f a) :=
  ext_get? fun j => by
    by_cases hj : j = k
    · subst hj
      rw [get?_modify_self, h, Option.map_some, get?_insert_self]
    · rw [get?_modify_of_ne hj, get?_insert_of_ne hj]

theorem insert_insert {b : α} : (t.insert k a).insert k b = t.insert k b :=
  ext_get? fun j => by
    by_cases hj : j = k
    · subst hj
      rw [get?_insert_self, get?_insert_self]
    · rw [get?_insert_of_ne hj, get?_insert_of_ne hj, get?_insert_of_ne hj]

/-- A value that has been put at a key is changed by being put there changed. -/
theorem modify_insert : (t.insert k a).modify k f = t.insert k (f a) := by
  rw [modify_of_get? get?_insert_self, insert_insert]

theorem erase_of_not_contains (h : t.contains k = false) : t.erase k = t :=
  ext_get? fun j => by
    by_cases hj : j = k
    · subst hj
      rw [get?_erase_self]
      exact (Option.not_isSome_iff_eq_none.1 (Bool.eq_false_iff.1 h)).symm
    · rw [get?_erase_of_ne hj]

end OnDemand.Table
