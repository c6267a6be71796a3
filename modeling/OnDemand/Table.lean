/-!
# Tables

A table holds at most one value per key, in increasing key order. The order is a field of the type, so
two tables that answer every question alike are equal (`Table.ext_get?`).
-/

namespace OnDemand

structure Table (κ α : Type) [Ord κ] where
  toList : List (κ × α)
  increasing : toList.Pairwise fun a b => compare a.1 b.1 = .lt
deriving DecidableEq, Repr

namespace Table

variable {κ α β : Type} [Ord κ]

/-! ## Lists of entries -/

def lookupList (k : κ) : List (κ × α) → Option α
  | [] => none
  | (j, a) :: rest => if compare k j = .eq then some a else lookupList k rest

def insertList (k : κ) (a : α) : List (κ × α) → List (κ × α)
  | [] => [(k, a)]
  | (j, b) :: rest =>
    match compare k j with
    | .lt => (k, a) :: (j, b) :: rest
    | .eq => (k, a) :: rest
    | .gt => (j, b) :: insertList k a rest

theorem mem_insertList {k : κ} {a : α} {e : κ × α} {l : List (κ × α)} (h : e ∈ insertList k a l) :
    e = (k, a) ∨ e ∈ l := by
  induction l with
  | nil => simpa [insertList] using h
  | cons f rest ih =>
    obtain ⟨j, b⟩ := f
    simp only [insertList] at h
    split at h <;> grind

theorem increasing_insertList [Std.TransOrd κ] [Std.LawfulEqOrd κ] (k : κ) (a : α) {l : List (κ × α)}
    (h : l.Pairwise fun a b => compare a.1 b.1 = .lt) :
    (insertList k a l).Pairwise fun a b => compare a.1 b.1 = .lt := by
  induction l with
  | nil => simp [insertList]
  | cons f rest ih =>
    obtain ⟨j, b⟩ := f
    rw [List.pairwise_cons] at h
    simp only [insertList]
    split
    · rename_i hlt
      refine List.pairwise_cons.2 ⟨fun e he => ?_, List.pairwise_cons.2 h⟩
      rcases List.mem_cons.1 he with rfl | he
      · exact hlt
      · exact Std.TransCmp.lt_trans hlt (h.1 e he)
    · rename_i heq
      obtain rfl := Std.LawfulEqOrd.eq_of_compare heq
      exact List.pairwise_cons.2 h
    · rename_i hgt
      refine List.pairwise_cons.2 ⟨fun e he => ?_, ih h.2⟩
      rcases mem_insertList he with rfl | he
      · exact Std.OrientedCmp.lt_of_gt hgt
      · exact h.1 e he

theorem lookupList_insertList [Std.TransOrd κ] [Std.LawfulEqOrd κ] (k j : κ) (a : α) (l : List (κ × α)) :
    lookupList j (insertList k a l) = if compare j k = .eq then some a else lookupList j l := by
  induction l with
  | nil => simp [insertList, lookupList]
  | cons f rest ih =>
    obtain ⟨i, b⟩ := f
    simp only [insertList]
    split
    · simp [lookupList]
    · rename_i heq
      obtain rfl := Std.LawfulEqOrd.eq_of_compare heq
      simp only [lookupList]
      split <;> simp_all
    · rename_i hgt
      simp only [lookupList, ih]
      by_cases h1 : compare j i = .eq
      · obtain rfl := Std.LawfulEqOrd.eq_of_compare h1
        have : compare j k ≠ .eq := by
          intro h2
          obtain rfl := Std.LawfulEqOrd.eq_of_compare h2
          simp at hgt
        simp [this]
      · simp [h1]

theorem lookupList_eq_none {k : κ} {l : List (κ × α)} (h : ∀ e ∈ l, compare k e.1 = .lt) :
    lookupList k l = none := by
  induction l with
  | nil => rfl
  | cons f rest ih =>
    obtain ⟨j, b⟩ := f
    have hj : compare k j = .lt := h (j, b) (by simp)
    simp only [lookupList, hj]
    simpa using ih fun e he => h e (by simp [he])

theorem lookupList_eq_some [Std.TransOrd κ] [Std.LawfulEqOrd κ] {k : κ} {a : α} {l : List (κ × α)}
    (h : l.Pairwise fun a b => compare a.1 b.1 = .lt) : lookupList k l = some a ↔ (k, a) ∈ l := by
  induction l with
  | nil => simp [lookupList]
  | cons f rest ih =>
    obtain ⟨j, b⟩ := f
    rw [List.pairwise_cons] at h
    simp only [lookupList]
    by_cases hk : compare k j = .eq
    · obtain rfl := Std.LawfulEqOrd.eq_of_compare hk
      have : (k, a) ∉ rest := fun hm => by simpa using h.1 _ hm
      simp [this, eq_comm]
    · have hne : k ≠ j := fun e => hk (by simp [e])
      simp [hk, ih h.2, hne]

theorem ext_lookupList [Std.TransOrd κ] [Std.LawfulEqOrd κ] {l m : List (κ × α)}
    (hl : l.Pairwise fun a b => compare a.1 b.1 = .lt) (hm : m.Pairwise fun a b => compare a.1 b.1 = .lt)
    (h : ∀ k, lookupList k l = lookupList k m) : l = m := by
  induction l generalizing m with
  | nil =>
    cases m with
    | nil => rfl
    | cons f rest => have := h f.1; simp [lookupList] at this
  | cons e l ih =>
    cases m with
    | nil => have := h e.1; simp [lookupList] at this
    | cons f m =>
      obtain ⟨k, a⟩ := e
      obtain ⟨j, b⟩ := f
      have hl' := List.pairwise_cons.1 hl
      have hm' := List.pairwise_cons.1 hm
      have hk := (lookupList_eq_some hm).1 ((h k) ▸ (lookupList_eq_some hl).2 (by simp : (k, a) ∈ (k, a) :: l))
      have hj := (lookupList_eq_some hl).1 ((h j) ▸ (lookupList_eq_some hm).2 (by simp : (j, b) ∈ (j, b) :: m))
      have hkj : k = j := by
        rcases List.mem_cons.1 hk with e | hk
        · exact congrArg Prod.fst e
        · rcases List.mem_cons.1 hj with e | hj
          · exact (congrArg Prod.fst e).symm
          · have h1 : compare j k = .lt := hm'.1 _ hk
            have h2 : compare k j = .lt := hl'.1 _ hj
            have := Std.TransCmp.lt_trans h1 h2
            simp at this
      subst hkj
      have hab : a = b := by have := h k; simpa [lookupList] using this
      subst hab
      congr 1
      refine ih hl'.2 hm'.2 fun i => ?_
      by_cases hi : compare i k = .eq
      · obtain rfl := Std.LawfulEqOrd.eq_of_compare hi
        rw [lookupList_eq_none hl'.1, lookupList_eq_none hm'.1]
      · have := h i; simpa [lookupList, hi] using this

/-! ## Operations -/

def empty : Table κ α := ⟨[], .nil⟩

instance : EmptyCollection (Table κ α) := ⟨empty⟩

instance : Inhabited (Table κ α) := ⟨empty⟩

def get? (t : Table κ α) (k : κ) : Option α := lookupList k t.toList

def contains (t : Table κ α) (k : κ) : Bool := (t.get? k).isSome

def size (t : Table κ α) : Nat := t.toList.length

def keys (t : Table κ α) : List κ := t.toList.map (·.1)

def values (t : Table κ α) : List α := t.toList.map (·.2)

/-- The table with `a` at `k`, whatever stood there. -/
def insert [Std.TransOrd κ] [Std.LawfulEqOrd κ] (t : Table κ α) (k : κ) (a : α) : Table κ α :=
  ⟨insertList k a t.toList, increasing_insertList k a t.increasing⟩

/-- The entries that satisfy `p`. -/
def filter (t : Table κ α) (p : κ → α → Bool) : Table κ α :=
  ⟨t.toList.filter fun e => p e.1 e.2, t.increasing.filter _⟩

def erase (t : Table κ α) (k : κ) : Table κ α :=
  t.filter fun j _ => compare j k != .eq

/-- Every value replaced by what `f` makes of it and its key. -/
def mapValues (t : Table κ α) (f : κ → α → β) : Table κ β :=
  ⟨t.toList.map fun e => (e.1, f e.1 e.2), by
    rw [List.pairwise_map]; exact t.increasing⟩

/-- The value at `k`, if there is one, replaced by what `f` makes of it. -/
def modify (t : Table κ α) (k : κ) (f : α → α) : Table κ α :=
  t.mapValues fun j a => if compare j k = .eq then f a else a

def ofList [Std.TransOrd κ] [Std.LawfulEqOrd κ] (l : List (κ × α)) : Table κ α :=
  l.foldl (fun t e => t.insert e.1 e.2) empty

/-! ## What the operations do to `get?` -/

@[simp] theorem get?_empty (k : κ) : (empty : Table κ α).get? k = none := rfl

variable [Std.TransOrd κ] [Std.LawfulEqOrd κ]

theorem get?_insert (t : Table κ α) (k j : κ) (a : α) :
    (t.insert k a).get? j = if compare j k = .eq then some a else t.get? j :=
  lookupList_insertList k j a t.toList

theorem mem_toList {t : Table κ α} {k : κ} {a : α} : (k, a) ∈ t.toList ↔ t.get? k = some a :=
  (lookupList_eq_some t.increasing).symm

theorem get?_filter (t : Table κ α) (p : κ → α → Bool) (k : κ) :
    (t.filter p).get? k = (t.get? k).filter (p k) := by
  ext a
  rw [← mem_toList, Option.filter_eq_some_iff, ← mem_toList]
  simp [filter]

theorem get?_erase (t : Table κ α) (k j : κ) :
    (t.erase k).get? j = if compare j k = .eq then none else t.get? j := by
  rw [erase, get?_filter]
  by_cases h : compare j k = .eq
  · rw [if_pos h]; cases t.get? j <;> simp [h]
  · rw [if_neg h]; cases t.get? j <;> simp [h]

theorem get?_mapValues (t : Table κ α) (f : κ → α → β) (k : κ) :
    (t.mapValues f).get? k = (t.get? k).map (f k) := by
  ext b
  rw [← mem_toList, Option.map_eq_some_iff]
  simp only [mapValues, List.mem_map, Prod.mk.injEq, Prod.exists]
  constructor
  · rintro ⟨j, a, h, rfl, rfl⟩
    exact ⟨a, mem_toList.1 h, rfl⟩
  · rintro ⟨a, h, rfl⟩
    exact ⟨k, a, mem_toList.2 h, rfl, rfl⟩

theorem get?_modify (t : Table κ α) (k j : κ) (f : α → α) :
    (t.modify k f).get? j = if compare j k = .eq then (t.get? j).map f else t.get? j := by
  rw [modify, get?_mapValues]
  by_cases h : compare j k = .eq
  · simp [h]
  · rw [if_neg h]; cases t.get? j <;> simp [h]

theorem ext_get? {t u : Table κ α} (h : ∀ k, t.get? k = u.get? k) : t = u := by
  obtain ⟨l, hl⟩ := t
  obtain ⟨m, hm⟩ := u
  obtain rfl := ext_lookupList hl hm h
  rfl

end Table

end OnDemand
