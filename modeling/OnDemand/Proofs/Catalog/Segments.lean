import OnDemand.Bridge.Placeholder
import OnDemand.Proofs.Path.Joining
import OnDemand.Reconcile

/-!
# The segments of an entry's path

The path of an entry is its parent and its name with a slash between them. Below a root it names a place of its own, if
every segment of it can be a name.
-/

namespace OnDemand

namespace Entry

variable {e : Entry} {root : Path} {path a a' : String}

/-! ## Ancestors -/

theorem mem_cuts {s a : List Char} : a ∈ cuts s ↔ ∃ t, s = a ++ '/' :: t := by
  induction s generalizing a with
  | nil => simp [cuts]
  | cons c rest ih =>
    cases a with
    | nil =>
      simp only [cuts]
      split <;> simp_all
    | cons d a =>
      have hlonger : d :: a ∈ (cuts rest).map (c :: ·) ↔ d = c ∧ a ∈ cuts rest := by
        rw [List.mem_map]
        constructor
        · rintro ⟨a', ha', he⟩
          obtain ⟨rfl, rfl⟩ := List.cons.inj he
          exact ⟨rfl, ha'⟩
        · rintro ⟨rfl, ha⟩
          exact ⟨a, ha, rfl⟩
      have hcuts : d :: a ∈ cuts (c :: rest) ↔ d :: a ∈ (cuts rest).map (c :: ·) := by
        simp only [cuts]
        split
        · exact ⟨fun h => (List.mem_cons.1 h).resolve_left (List.cons_ne_nil d a), List.mem_cons_of_mem _⟩
        · exact Iff.rfl
      rw [hcuts, hlonger, ih]
      constructor
      · rintro ⟨rfl, t, rfl⟩
        exact ⟨t, rfl⟩
      · rintro ⟨t, ht⟩
        obtain ⟨rfl, rfl⟩ := List.cons.inj ht
        exact ⟨rfl, t, rfl⟩

theorem mem_ancestors : a ∈ ancestors path ↔ a ≠ "" ∧ ∃ t, path.toList = a.toList ++ '/' :: t := by
  simp only [ancestors, List.mem_map, List.mem_filter, mem_cuts, decide_eq_true_eq]
  constructor
  · rintro ⟨s, ⟨ht, hs⟩, rfl⟩
    rw [String.toList_ofList]
    exact ⟨by simpa using hs, ht⟩
  · rintro ⟨ha, ht⟩
    exact ⟨a.toList, ⟨ht, by simpa using ha⟩, String.ofList_toList⟩

theorem ancestors_trans (h : a ∈ ancestors path) (h' : a' ∈ ancestors a) : a' ∈ ancestors path := by
  obtain ⟨-, t, ht⟩ := mem_ancestors.1 h
  obtain ⟨hne, t', ht'⟩ := mem_ancestors.1 h'
  exact mem_ancestors.2 ⟨hne, t' ++ '/' :: t, by rw [ht, ht', List.append_assoc, List.cons_append]⟩

/-- What stands before a slash of a path comes before it in the order of paths. -/
theorem lt_of_slash {t : List Char} (h : path.toList = a.toList ++ '/' :: t) : a < path := by
  rw [String.lt_iff, h]
  generalize a.toList = l
  induction l with
  | nil => exact List.Lex.nil
  | cons c l ih => exact List.Lex.cons ih

theorem lt_of_mem_ancestors (h : a ∈ ancestors path) : a < path := by
  obtain ⟨-, t, ht⟩ := mem_ancestors.1 h
  exact lt_of_slash ht

/-! ## Parent and name -/

theorem cuts_eq_nil {t : List Char} (ht : '/' ∉ t) : cuts t = [] :=
  List.eq_nil_iff_forall_not_mem.2 fun a ha => by
    obtain ⟨s, rfl⟩ := mem_cuts.1 ha
    simp at ht

/-- The last slash adds one cut to those before it. -/
theorem cuts_append {a t : List Char} (ht : '/' ∉ t) : cuts (a ++ '/' :: t) = cuts a ++ [a] := by
  induction a with
  | nil => simp [cuts, cuts_eq_nil ht]
  | cons c a ih =>
    simp only [List.cons_append, cuts, ih, List.map_append, List.map_cons, List.map_nil]
    split <;> rfl

theorem getLast?_cuts_append {a t : List Char} (ht : '/' ∉ t) : (cuts (a ++ '/' :: t)).getLast? = some a := by
  rw [cuts_append ht, List.getLast?_append]
  rfl

/-- The last slash of a text that has one. -/
theorem exists_last_slash {s : List Char} (hs : '/' ∈ s) : ∃ a t, s = a ++ '/' :: t ∧ '/' ∉ t := by
  obtain ⟨back, front, hreverse, hback⟩ := List.eq_append_cons_of_mem (List.mem_reverse.2 hs)
  refine ⟨front.reverse, back.reverse, ?_, by simpa using hback⟩
  rw [← List.reverse_reverse s, hreverse]
  simp

theorem name_of_slash {s t : List Char} (hpath : e.path.toList = s ++ '/' :: t) (ht : '/' ∉ t) :
    e.name = String.ofList t := by
  rw [name, Text.splitBy_eq_splitOn, hpath, List.splitOn_append_cons_self, List.splitOn_eq_singleton ht]
  simp

theorem parent_of_slash {s t : List Char} (hpath : e.path.toList = s ++ '/' :: t) (ht : '/' ∉ t) :
    e.parent = String.ofList s := by
  rw [parent, hpath, getLast?_cuts_append ht]
  rfl

/-- A path is a name, or a parent and a name with a slash between them. -/
theorem path_cases (e : Entry) :
    '/' ∉ e.name.toList ∧
      ((e.parent = "" ∧ e.path = e.name) ∨ e.path.toList = e.parent.toList ++ '/' :: e.name.toList) := by
  by_cases hslash : '/' ∈ e.path.toList
  · obtain ⟨s, t, hpath, ht⟩ := exists_last_slash hslash
    rw [name_of_slash hpath ht, parent_of_slash hpath ht, String.toList_ofList, String.toList_ofList]
    exact ⟨ht, .inr hpath⟩
  · have hname : e.name = e.path := by
      rw [name, Text.splitBy_eq_splitOn, List.splitOn_eq_singleton hslash]
      simp
    have hparent : e.parent = "" := by
      rw [parent, cuts_eq_nil hslash]
      rfl
    rw [hname]
    exact ⟨hslash, .inl ⟨hparent, rfl⟩⟩

theorem parent_mem_ancestors (h : e.parent ≠ "") : e.parent ∈ ancestors e.path := by
  rcases e.path_cases.2 with ⟨hparent, -⟩ | hpath
  · exact absurd hparent h
  · exact mem_ancestors.2 ⟨h, _, hpath⟩

/-! ## Segments -/

/-- What stands between the slashes of a path. -/
def segments (path : String) : List String := (path.toList.splitOn '/').map String.ofList

/-- Every segment of the path can be a name. -/
def IsPlain (path : String) : Prop := ∀ s ∈ segments path, Bridge.isValidName s = true

instance (path : String) : Decidable (IsPlain path) := inferInstanceAs (Decidable (∀ s ∈ segments path, _))

theorem map_toList_segments (path : String) : (segments path).map String.toList = path.toList.splitOn '/' := by
  rw [segments, List.map_map]
  exact (List.map_congr_left fun s _ => String.toList_ofList).trans (List.map_id _)

theorem segments_injective {p q : String} (h : segments p = segments q) : p = q := by
  have hlists : p.toList.splitOn '/' = q.toList.splitOn '/' := by
    rw [← map_toList_segments, h, map_toList_segments]
  have hjoined := congrArg (['/'].intercalate ·) hlists
  simp only [List.intercalate_splitOn] at hjoined
  exact String.toList_inj.1 hjoined

theorem segments_ne_nil (path : String) : segments path ≠ [] := by simp [segments, List.splitOn_ne_nil]

theorem segments_of_name (hs : '/' ∉ path.toList) : segments path = [path] := by
  rw [segments, List.splitOn_eq_singleton hs]
  simp

theorem segments_of_slash {a s : String} (hpath : path.toList = a.toList ++ '/' :: s.toList) :
    segments path = segments a ++ segments s := by
  rw [segments, hpath, List.splitOn_append_cons_self, List.map_append]
  rfl

theorem slash_not_mem_of_mem_segments {s : String} (h : s ∈ segments path) : '/' ∉ s.toList := by
  refine Text.not_mem_of_mem_splitOn (s := path.toList) ?_
  rw [← map_toList_segments]
  exact List.mem_map_of_mem h

/-- What stands before a slash consists of segments of the path. -/
theorem segments_subset_of_mem_ancestors (ha : a ∈ ancestors path) : segments a ⊆ segments path := by
  obtain ⟨-, t, ht⟩ := mem_ancestors.1 ha
  have hpath : path.toList = a.toList ++ '/' :: (String.ofList t).toList := by rw [ht, String.toList_ofList]
  rw [segments_of_slash hpath]
  exact List.subset_append_left ..

/-- Every segment of the path counts: none is empty, and none is a `.`. -/
def IsTidy (path : String) : Prop := ∀ s ∈ segments path, s ≠ "" ∧ s ≠ "."

instance (path : String) : Decidable (IsTidy path) := inferInstanceAs (Decidable (∀ s ∈ segments path, _))

theorem IsTidy.ancestor (h : IsTidy path) (ha : a ∈ ancestors path) : IsTidy a := fun s hs =>
  h s (segments_subset_of_mem_ancestors ha hs)

theorem IsTidy.parent (h : IsTidy e.path) (hp : e.parent ≠ "") : IsTidy e.parent :=
  h.ancestor (parent_mem_ancestors hp)

theorem IsPlain.ancestor (h : IsPlain path) (ha : a ∈ ancestors path) : IsPlain a := fun s hs =>
  h s (segments_subset_of_mem_ancestors ha hs)

theorem IsPlain.parent (h : IsPlain e.path) (hp : e.parent ≠ "") : IsPlain e.parent :=
  h.ancestor (parent_mem_ancestors hp)

theorem IsPlain.tidy (h : IsPlain path) : IsTidy path := fun s hs =>
  have ⟨hne, hdot, _⟩ := Bridge.isValidName_iff.1 (h s hs)
  ⟨hne, hdot⟩

/-! ## Steps -/

/-- The segments that are not empty: the steps to take from a directory to get to a path below it. -/
def steps (path : String) : List String := (segments path).filter (· ≠ "")

theorem IsTidy.steps (h : IsTidy path) : steps path = segments path :=
  List.filter_eq_self.2 fun s hs => decide_eq_true (h s hs).1

/-- The last segment of a tidy path is its name, those before are the steps to its parent. -/
theorem IsTidy.segments_eq (h : IsTidy e.path) : segments e.path = Entry.steps e.parent ++ [e.name] := by
  obtain ⟨hname, ⟨hparent, hpath⟩ | hpath⟩ := e.path_cases
  · rw [hpath, segments_of_name hname, hparent]
    rfl
  · rw [segments_of_slash hpath, segments_of_name hname]
    by_cases hparent : e.parent = ""
    · have hempty : "" ∈ segments e.path := by
        rw [segments_of_slash hpath, hparent]
        exact List.mem_append_left _ (List.mem_singleton_self _)
      exact absurd rfl (h "" hempty).1
    · rw [(h.parent hparent).steps]

theorem IsPlain.name (h : IsPlain e.path) : Bridge.isValidName e.name = true :=
  h e.name (by rw [h.tidy.segments_eq]; exact List.mem_append_right _ (List.mem_singleton_self _))

end Entry

/-! ## Places below a root -/

namespace Component

/-- The component that a segment stands for, if it counts. -/
def ofName (s : String) : Component := if s = ".." then .up else .name s

theorem ofName_injective {s t : String} (h : ofName s = ofName t) : s = t := by
  unfold ofName at h
  split at h <;> split at h
  · rename_i hs ht
    rw [hs, ht]
  · cases h
  · cases h
  · exact Component.name.inj h

theorem ofSegment?_eq {s : String} (h : s ≠ "" ∧ s ≠ ".") : ofSegment? s.toList = some (ofName s) := by
  have hcounts : ¬(s.toList = [] ∨ s.toList = ['.']) :=
    not_or.2 ⟨by simpa using h.1, fun hdot => h.2 (String.toList_inj.1 hdot)⟩
  have hup : s.toList = ['.', '.'] ↔ s = ".." := by rw [← String.toList_inj]; rfl
  rw [ofSegment?, if_neg hcounts, String.ofList_toList, ofName]
  simp only [hup]
  split <;> rfl

end Component

namespace Path

/-- The path that taking `names` one after the other leads to. -/
def descend (p : Path) (names : List String) : Path := names.foldl join p

theorem descend_append (p : Path) (names more : List String) :
    p.descend (names ++ more) = (p.descend names).descend more := List.foldl_append

theorem route_join_valid {p : Path} {name : String} (h : Bridge.isValidName name = true) :
    (p.join name).route = p.route ++ [.name name] := by
  obtain ⟨hne, hdot, hup, hslash, -⟩ := Bridge.isValidName_iff.1 h
  exact route_join_name hslash hne hdot hup

/-- Segments that count lead on by the components that they stand for. -/
theorem route_descend_segments {p : Path} {names : List String} (hslash : ∀ n ∈ names, '/' ∉ n.toList)
    (hcounts : ∀ n ∈ names, n ≠ "" ∧ n ≠ ".") : (p.descend names).route = p.route ++ names.map .ofName := by
  induction names generalizing p with
  | nil => simp [descend]
  | cons n names ih =>
    rw [descend, List.foldl_cons, ← descend, ih (fun m hm => hslash m (List.mem_cons_of_mem _ hm)) fun m hm =>
      hcounts m (List.mem_cons_of_mem _ hm), route_join (hslash n List.mem_cons_self) (.inr (hcounts n List.mem_cons_self).2),
      Component.ofSegment?_eq (hcounts n List.mem_cons_self), List.append_assoc]
    rfl

theorem route_descend {p : Path} {names : List String} (h : ∀ n ∈ names, Bridge.isValidName n = true) :
    (p.descend names).route = p.route ++ names.map .name := by
  induction names generalizing p with
  | nil => simp [descend]
  | cons n names ih =>
    rw [descend, List.foldl_cons, ← descend, ih fun m hm => h m (List.mem_cons_of_mem _ hm),
      route_join_valid (h n List.mem_cons_self), List.append_assoc]
    rfl

end Path

namespace Entry

variable {e : Entry} {root : Path} {path : String}

theorem parentIn_eq (root : Path) (e : Entry) : e.parentIn root = root.descend (steps e.parent) := by
  have hsteps : ∀ l : List (List Char), (l.map String.ofList).filter (· ≠ "") = (l.filter (· ≠ [])).map String.ofList := by
    intro l
    rw [List.filter_map]
    exact congrArg _ (List.filter_congr fun s _ => by simp)
  rw [parentIn, Text.splitBy_eq_splitOn, Path.descend, steps, segments, hsteps, List.foldl_map]

theorem pathIn_eq (root : Path) (e : Entry) : e.pathIn root = root.descend (steps e.parent ++ [e.name]) := by
  rw [pathIn, parentIn_eq, Path.descend_append]
  rfl

/-- The place of a plain path below `root`. -/
def place (root : Path) (path : String) : Route := root.route ++ (segments path).map .name

theorem route_pathIn (root : Path) (h : IsPlain e.path) : (e.pathIn root).route = place root e.path := by
  rw [pathIn_eq, ← h.tidy.segments_eq, Path.route_descend h, place]

/-- A plain path lies below the root itself, or below the place of its parent. -/
theorem route_parentIn (h : IsPlain e.path) :
    (e.parentIn root).route = if e.parent = "" then root.route else place root e.parent := by
  rw [parentIn_eq]
  split
  · rename_i hparent
    rw [hparent]
    rfl
  · rename_i hparent
    rw [(h.parent hparent).tidy.steps, Path.route_descend (h.parent hparent), place]

theorem place_injective {p q : String} (h : place root p = place root q) : p = q := by
  refine segments_injective (List.map_inj_right (fun s t hst => ?_) |>.1 (List.append_cancel_left h))
  exact Component.name.inj hst

/-- Plain paths have their own places. -/
theorem route_pathIn_inj {d : Entry} (root : Path) (hd : IsPlain d.path) (he : IsPlain e.path) :
    (d.pathIn root).route = (e.pathIn root).route ↔ d.path = e.path := by
  rw [route_pathIn root hd, route_pathIn root he]
  exact ⟨place_injective, fun h => by rw [h]⟩

theorem IsTidy.route_pathIn (root : Path) (h : IsTidy e.path) :
    (e.pathIn root).route = root.route ++ (segments e.path).map .ofName := by
  rw [pathIn_eq, ← h.segments_eq, Path.route_descend_segments (fun _ => slash_not_mem_of_mem_segments) h]

theorem IsTidy.route_parentIn (root : Path) (h : IsTidy e.path) :
    (e.parentIn root).route = root.route ++ (Entry.steps e.parent).map .ofName := by
  have hsteps : Entry.steps e.parent ⊆ segments e.path := by
    rw [h.segments_eq]
    exact List.subset_append_left ..
  rw [parentIn_eq, Path.route_descend_segments (fun _ hs => slash_not_mem_of_mem_segments (hsteps hs))
    fun s hs => h s (hsteps hs)]

/-- Tidy paths have their own places. -/
theorem IsTidy.path_eq {d : Entry} (hd : IsTidy d.path) (he : IsTidy e.path)
    (h : (d.pathIn root).route = (e.pathIn root).route) : d.path = e.path := by
  rw [hd.route_pathIn, he.route_pathIn] at h
  refine segments_injective ((List.map_inj_right fun s t hst => ?_).1 (List.append_cancel_left h))
  exact Component.ofName_injective hst

/-- The place of a tidy path is not that of the parent of what comes before it. -/
theorem IsTidy.parentIn_ne {d : Entry} (hd : IsTidy d.path) (he : IsTidy e.path) (hlt : ¬e.path < d.path) :
    (d.parentIn root).route ≠ (e.pathIn root).route := by
  intro h
  rw [hd.route_parentIn, he.route_pathIn] at h
  have hsegments : Entry.steps d.parent = segments e.path :=
    (List.map_inj_right fun _ _ => Component.ofName_injective).1 (List.append_cancel_left h)
  by_cases hparent : d.parent = ""
  · rw [hparent] at hsegments
    exact segments_ne_nil e.path hsegments.symm
  · rw [(hd.parent hparent).steps] at hsegments
    rw [← segments_injective hsegments] at hlt
    exact hlt (lt_of_mem_ancestors (parent_mem_ancestors hparent))

theorem isPrefix_place (root : Path) (path : String) : root.route <+: place root path := List.prefix_append ..

theorem place_ne_root (root : Path) (path : String) : place root path ≠ root.route := fun h =>
  segments_ne_nil path (List.map_eq_nil_iff.1 (List.append_right_eq_self.1 h))

end Entry

end OnDemand
