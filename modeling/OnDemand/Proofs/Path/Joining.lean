import OnDemand.Path

/-!
# Joining paths

A path is split at its slashes, and joining a segment to it adds the component that the segment stands for.
-/

namespace OnDemand

namespace Text

theorem splitBy_eq_splitOnP (p : Char → Bool) (s : List Char) : splitBy p s = s.splitOnP p := by
  induction s with
  | nil => rfl
  | cons c rest ih =>
    rw [splitBy, ih, List.splitOnP_cons_eq_if_modifyHead]
    split
    · rfl
    · cases h : rest.splitOnP p with
      | nil => exact absurd h (List.splitOnP_ne_nil p rest)
      | cons piece pieces => rfl

theorem splitBy_eq_splitOn (c : Char) (s : List Char) : splitBy (· = c) s = s.splitOn c :=
  splitBy_eq_splitOnP ..

theorem not_mem_of_mem_splitOn {c : Char} {s piece : List Char} (h : piece ∈ s.splitOn c) : c ∉ piece := by
  induction s generalizing piece with
  | nil =>
    rw [List.splitOn_nil, List.mem_singleton] at h
    rw [h]
    exact List.not_mem_nil
  | cons d rest ih =>
    rw [List.splitOn_cons_eq_if_modifyHead] at h
    split at h
    · rcases List.mem_cons.1 h with rfl | h
      · exact List.not_mem_nil
      · exact ih h
    · rename_i hd
      have hne : c ≠ d := fun he => hd (beq_iff_eq.2 he.symm)
      cases hpieces : rest.splitOn c with
      | nil => exact absurd hpieces (List.splitOn_ne_nil _ _)
      | cons first others =>
        rw [hpieces] at h ih
        rcases List.mem_cons.1 h with rfl | h
        · exact List.not_mem_cons_of_ne_of_not_mem hne (ih List.mem_cons_self)
        · exact ih (List.mem_cons_of_mem first h)

end Text

namespace Path

variable {p : Path} {s : String}

theorem toList_join (hs : '/' ∉ s.toList) :
    (p.join s).text.toList =
      if p.text.toList = [] ∨ p.text.toList.getLast? = some '/' then p.text.toList ++ s.toList
      else p.text.toList ++ '/' :: s.toList := by
  have hhead : s.toList.head? ≠ some '/' := fun he => hs (List.mem_of_mem_head? he)
  rw [join, if_neg hhead]
  split <;> simp

/-- Joining leaves the segments of a path as they are, except for an empty last one, which the new one replaces. -/
theorem splitOn_join (hs : '/' ∉ s.toList) (hp : p.text ≠ "") :
    ∃ front, front ≠ [] ∧ (p.join s).text.toList.splitOn '/' = front ++ [s.toList] ∧
      (p.text.toList.splitOn '/' = front ∨ p.text.toList.splitOn '/' = front ++ [[]]) := by
  have hne : p.text.toList ≠ [] := by simpa using hp
  have hlast : s.toList.splitOn '/' = [s.toList] := List.splitOn_eq_singleton hs
  rw [toList_join hs]
  by_cases hslash : p.text.toList.getLast? = some '/'
  · obtain ⟨init, hinit⟩ := List.getLast?_eq_some_iff.1 hslash
    refine ⟨init.splitOn '/', List.splitOn_ne_nil _ _, ?_, .inr ?_⟩
    · rw [if_pos (.inr hslash), hinit, List.append_assoc, List.singleton_append, List.splitOn_append_cons_self, hlast]
    · rw [hinit, List.splitOn_append_cons_self, List.splitOn_nil]
  · refine ⟨p.text.toList.splitOn '/', List.splitOn_ne_nil _ _, ?_, .inl rfl⟩
    rw [if_neg (not_or.2 ⟨hne, hslash⟩), List.splitOn_append_cons_self, hlast]

/-- What a path begins with, beside the components of its segments. -/
def lead (t : List Char) : Route :=
  if t.head? = some '/' then [.root] else if (t.splitOn '/').head? = some ['.'] then [.here] else []

theorem route_eq (p : Path) :
    p.route = lead p.text.toList ++ (p.text.toList.splitOn '/').filterMap Component.ofSegment? := by
  simp only [route, isAbsolute, Text.splitBy_eq_splitOn, lead, beq_iff_eq]

theorem head?_append_left {α : Type} {l m : List α} (h : l ≠ []) : (l ++ m).head? = l.head? := by
  cases l with
  | nil => exact absurd rfl h
  | cons a l => rfl

theorem filterMap_singleton {α β : Type} (f : α → Option β) (a : α) : [a].filterMap f = (f a).toList := by
  rw [List.filterMap_cons]
  cases f a <;> rfl

theorem lead_join (hs : '/' ∉ s.toList) (hp : p.text ≠ "") : lead (p.join s).text.toList = lead p.text.toList := by
  have hne : p.text.toList ≠ [] := by simpa using hp
  have hhead : (p.join s).text.toList.head? = p.text.toList.head? := by
    rw [toList_join hs]
    split <;> exact head?_append_left hne
  obtain ⟨front, hfront, hsegments, hp⟩ := splitOn_join hs hp
  have hfirst : (p.text.toList.splitOn '/').head? = front.head? := by
    rcases hp with hp | hp <;> rw [hp]
    exact head?_append_left hfront
  rw [lead, lead, hhead, hsegments, hfirst, head?_append_left hfront]

/-- A segment adds the component that it stands for; only a `.` counts where nothing stands before it. -/
theorem route_join (hs : '/' ∉ s.toList) (hp : p.text ≠ "" ∨ s ≠ ".") :
    (p.join s).route = p.route ++ (Component.ofSegment? s.toList).toList := by
  rw [route_eq, route_eq]
  by_cases hempty : p.text = ""
  · have hdot : s.toList ≠ ['.'] := fun he => hp.elim (absurd hempty) fun h => h (String.toList_inj.1 he)
    have hhead : s.toList.head? ≠ some '/' := fun he => hs (List.mem_of_mem_head? he)
    have hone : s.toList.splitOn '/' = [s.toList] := List.splitOn_eq_singleton hs
    have hjoin : (p.join s).text.toList = s.toList := by
      rw [toList_join hs, if_pos (.inl (by rw [hempty]; rfl)), hempty]
      rfl
    have hlead : lead s.toList = [] := by simp [lead, hone, hhead, hdot]
    rw [hjoin, hempty, hone, hlead, filterMap_singleton]
    rfl
  · obtain ⟨front, -, hsegments, hp⟩ := splitOn_join hs hempty
    have hkept : (p.text.toList.splitOn '/').filterMap Component.ofSegment? = front.filterMap Component.ofSegment? := by
      rcases hp with hp | hp <;> rw [hp]
      rw [List.filterMap_append]
      exact List.append_nil _
    rw [lead_join hs hempty, hsegments, hkept, List.filterMap_append, filterMap_singleton, List.append_assoc]

/-- A name that is more than a step to where one is adds itself. -/
theorem route_join_name (hs : '/' ∉ s.toList) (hne : s ≠ "") (hdot : s ≠ ".") (hup : s ≠ "..") :
    (p.join s).route = p.route ++ [.name s] := by
  have hempty : s.toList ≠ [] := by simpa using hne
  have hdot' : s.toList ≠ ['.'] := fun he => hdot (String.toList_inj.1 he)
  have hup' : s.toList ≠ ['.', '.'] := fun he => hup (String.toList_inj.1 he)
  rw [route_join hs (.inr hdot), Component.ofSegment?, if_neg (not_or.2 ⟨hempty, hdot'⟩), if_neg hup', String.ofList_toList]
  rfl

end Path

end OnDemand
