import OnDemand.Proofs.Catalog.Closure

/-!
# Patching a catalog with a difference

A difference does not look at what is said of directories, so it leads to a catalog with the paths and the files of the
newer one. From there the next difference leads on, as long as what is a directory stays one.
-/

namespace OnDemand

/-- The entry, if it is a file. -/
def Entry.file? (e : Entry) : Option Entry := if e.directory then none else some e

namespace Catalog

variable {c d older newer : Catalog} {e f : Entry} {l : List Entry} {p : String}

/-! ## Catalogs of the same contents -/

/-- The entries that are files, in the order of paths. -/
def files (c : Catalog) : List Entry := c.toList.filter fun e => !e.directory

/-- The catalogs have the same paths and the same files. -/
structure SameContents (c d : Catalog) : Prop where
  paths : c.paths = d.paths
  files : c.files = d.files

theorem SameContents.refl (c : Catalog) : SameContents c c := ⟨rfl, rfl⟩

/-- A catalog without what is said of its directories. -/
def outline (c : Catalog) : Table String (Option Entry) := c.entries.mapValues fun _ e => e.file?

theorem get?_outline : c.outline.get? p = (c.get? p).map Entry.file? := Table.get?_mapValues ..

theorem keys_outline : c.outline.keys = c.paths := by
  simp only [outline, Table.keys, Table.mapValues, paths, List.map_map]
  rfl

theorem files_eq_outline : c.files = c.outline.values.filterMap id := by
  simp only [files, outline, Table.values, Table.mapValues, toList, List.map_map, List.filterMap_map]
  induction c.entries.toList with
  | nil => rfl
  | cons x rest ih => cases hx : x.2.directory <;> simp [Entry.file?, hx, ih]

theorem mem_files (hc : c.Keyed) : e ∈ c.files ↔ c.get? e.path = some e ∧ e.directory = false := by
  rw [files, List.mem_filter, hc.mem_toList, Bool.not_eq_true']

/-- A file stands in the outline where it stands in the catalog. -/
theorem outline_eq_file (hc : c.Keyed) :
    (c.get? p).map Entry.file? = some (some e) ↔ e ∈ c.files ∧ e.path = p := by
  rw [mem_files hc, Option.map_eq_some_iff]
  constructor
  · rintro ⟨x, hx, hfile⟩
    cases hdirectory : x.directory with
    | true => simp [Entry.file?, hdirectory] at hfile
    | false =>
      obtain rfl : x = e := by simpa [Entry.file?, hdirectory] using hfile
      have hpath := hc _ _ hx
      exact ⟨⟨by rw [hpath, hx], hdirectory⟩, hpath⟩
  · rintro ⟨⟨he, hdirectory⟩, rfl⟩
    exact ⟨e, he, by simp [Entry.file?, hdirectory]⟩

/-- Catalogs have the same contents if they say alike of every path what counts. -/
theorem sameContents_iff (hc : c.Keyed) (hd : d.Keyed) :
    SameContents c d ↔ ∀ p, (c.get? p).map Entry.file? = (d.get? p).map Entry.file? := by
  constructor
  · intro h p
    have hnone : c.get? p = none ↔ d.get? p = none := by
      rw [← not_iff_not, ← ne_eq, ← ne_eq, Option.ne_none_iff_exists', Option.ne_none_iff_exists', ← mem_paths, h.paths,
        mem_paths]
    have hfile : ∀ e, (c.get? p).map Entry.file? = some (some e) ↔ (d.get? p).map Entry.file? = some (some e) := by
      intro e
      rw [outline_eq_file hc, outline_eq_file hd, h.files]
    cases hx : c.get? p with
    | none => rw [hnone.1 hx]
    | some x =>
      cases hy : d.get? p with
      | none => rw [hnone.2 hy] at hx; cases hx
      | some y =>
        rw [hx, hy] at hfile
        simp only [Option.map_some, Option.some.injEq] at hfile ⊢
        exact Option.ext hfile
  · intro h
    have houtline : c.outline = d.outline := Table.ext_get? fun p => by rw [get?_outline, get?_outline, h p]
    exact ⟨by rw [← keys_outline, houtline, keys_outline], by rw [files_eq_outline, houtline, ← files_eq_outline]⟩

/-! ## What a difference leads to -/

theorem get?_foldl_insert {t : Table String Entry} :
    (l.foldl (fun t e => t.insert e.path e) t).get? p = (last? l p).or (t.get? p) := by
  induction l using List.reverseRecOn with
  | nil => rfl
  | append_singleton l e ih =>
    rw [List.foldl_append, List.foldl_cons, List.foldl_nil, last?_append_singleton]
    split <;> rename_i hp
    · rw [hp, Table.get?_insert_self]
      rfl
    · rw [Table.get?_insert_of_ne hp, ih]

theorem get?_patch {d : Catalog.Diff} :
    (c.patch d).get? p = (last? (d.added ++ d.changed) p).or (if p ∈ d.removed then none else c.get? p) := by
  rw [patch, get?, get?_foldl_insert, Table.get?_filter, get?]
  congr 1
  cases c.entries.get? p with
  | none => simp
  | some e => by_cases hp : p ∈ d.removed <;> simp [hp]

theorem Keyed.patch (hc : c.Keyed) (d : Catalog.Diff) : (c.patch d).Keyed := by
  intro p e he
  rw [get?_patch] at he
  rcases Option.or_eq_some_iff.1 he with hlast | ⟨-, hkept⟩
  · exact (mem_of_last? hlast).2
  · split at hkept
    · cases hkept
    · exact hc p e hkept

/-- The newer catalog has `e` where the older one has nothing, or a file with other contents. -/
def supersedes (older : Catalog) (e : Entry) : Prop :=
  older.get? e.path = none ∨ ∃ old, older.get? e.path = some old ∧ e.directory = false ∧ old.differs e = true

theorem mem_added_append_changed :
    e ∈ (older.diff newer).added ++ (older.diff newer).changed ↔ e ∈ newer.toList ∧ older.supersedes e := by
  rw [List.mem_append, mem_added, mem_changed, ← and_or_left]
  rfl

theorem mem_removed : p ∈ (older.diff newer).removed ↔ (∃ e, older.get? p = some e) ∧ newer.get? p = none := by
  rw [diff, List.mem_filter, mem_paths, Option.isNone_iff_eq_none]

/-- The only entry at its path is the last one there. -/
theorem last?_eq_some (hone : ∀ x ∈ l, ∀ y ∈ l, x.path = y.path → x = y) (he : e ∈ l) : last? l e.path = some e := by
  cases hlast : last? l e.path with
  | none => exact absurd rfl (last?_eq_none.1 hlast e he)
  | some f =>
    obtain ⟨hf, hpath⟩ := mem_of_last? hlast
    rw [hone f hf e he hpath]

theorem last?_superseding (hnewer : newer.Keyed) (he : newer.get? p = some e) (h : older.supersedes e) :
    last? ((older.diff newer).added ++ (older.diff newer).changed) p = some e := by
  obtain rfl := hnewer p e he
  refine last?_eq_some (fun x hx y hy => ?_) (mem_added_append_changed.2 ⟨mem_toList.2 ⟨_, he⟩, h⟩)
  exact hnewer.eq_of_path (mem_added_append_changed.1 hx).1 (mem_added_append_changed.1 hy).1

theorem last?_kept (hnewer : newer.Keyed) (h : ∀ e, newer.get? p = some e → ¬older.supersedes e) :
    last? ((older.diff newer).added ++ (older.diff newer).changed) p = none :=
  last?_eq_none.2 fun e he hpath => by
    obtain ⟨hmem, hsupersedes⟩ := mem_added_append_changed.1 he
    exact h e (by rw [← hpath]; exact hnewer.mem_toList.1 hmem) hsupersedes

/-- A path of both catalogs is a directory in both or a file in both. -/
def SameKinds (c d : Catalog) : Prop :=
  ∀ x ∈ c.toList, ∀ y ∈ d.toList, x.path = y.path → x.directory = y.directory

instance (c d : Catalog) : Decidable (SameKinds c d) :=
  inferInstanceAs (Decidable (∀ x ∈ c.toList, ∀ y ∈ d.toList, _ → _))

/-- An entry that is not taken over says nothing else than the older one. -/
theorem file?_of_not_supersedes (holder : older.Keyed) (hnewer : newer.Keyed) (hkinds : SameKinds older newer)
    (he : newer.get? p = some e) (h : ¬older.supersedes e) : (older.get? p).map Entry.file? = some e.file? := by
  obtain rfl := hnewer p e he
  obtain ⟨hnone, hsame⟩ := not_or.1 h
  obtain ⟨old, hold⟩ := Option.ne_none_iff_exists'.1 hnone
  have hpath := holder _ _ hold
  have hkind : old.directory = e.directory :=
    hkinds old (mem_toList.2 ⟨_, hold⟩) e (mem_toList.2 ⟨_, he⟩) hpath
  rw [hold, Option.map_some, Entry.file?, Entry.file?, hkind]
  cases hdirectory : e.directory with
  | true => rfl
  | false =>
    have hdiffers : old.differs e = false :=
      Bool.eq_false_iff.2 fun hdiffers => hsame ⟨old, hold, hdirectory, hdiffers⟩
    obtain ⟨hobject, hsize, hmtime⟩ := differs_eq_false hdiffers
    obtain rfl : old = e := by
      cases old
      cases e
      simp_all
    rfl

/-- From the contents of the older catalog, a difference leads to those of the newer one. -/
theorem sameContents_patch (hc : c.Keyed) (holder : older.Keyed) (hnewer : newer.Keyed) (h : SameContents c older)
    (hkinds : SameKinds older newer) : SameContents (c.patch (older.diff newer)) newer := by
  rw [sameContents_iff hc holder] at h
  rw [sameContents_iff (hc.patch _) hnewer]
  intro p
  rw [get?_patch]
  cases he : newer.get? p with
  | none =>
    rw [last?_kept hnewer fun e he' => by rw [he] at he'; cases he']
    split <;> rename_i hremoved
    · rfl
    · have hnone : older.get? p = none := Option.eq_none_iff_forall_ne_some.2 fun old hold =>
        hremoved (mem_removed.2 ⟨⟨old, hold⟩, he⟩)
      rw [Option.none_or, h p, hnone]
  | some e =>
    have hkept : p ∉ (older.diff newer).removed := fun hremoved => by
      rw [(mem_removed.1 hremoved).2] at he
      cases he
    rw [if_neg hkept]
    by_cases hsupersedes : older.supersedes e
    · rw [last?_superseding hnewer he hsupersedes]
      rfl
    · rw [last?_kept hnewer fun e' he' => by rw [← Option.some.inj (he.symm.trans he')]; exact hsupersedes,
        Option.none_or, h p, file?_of_not_supersedes holder hnewer hkinds he hsupersedes]
      rfl

/-- Patching with nothing changes nothing. -/
theorem patch_of_isEmpty {d : Catalog.Diff} (h : d.isEmpty = true) (p : String) : (c.patch d).get? p = c.get? p := by
  simp only [Diff.isEmpty, Bool.and_eq_true, List.isEmpty_iff] at h
  rw [get?_patch, h.1.1, h.1.2, h.2, if_neg List.not_mem_nil]
  rfl

theorem isEmpty_diff_iff (holder : older.Keyed) (hnewer : newer.Keyed) (hkinds : SameKinds older newer) :
    (older.diff newer).isEmpty = true ↔ SameContents older newer := by
  constructor
  · intro h
    have hpatched := sameContents_patch holder holder hnewer (.refl older) hkinds
    rw [sameContents_iff (holder.patch _) hnewer] at hpatched
    rw [sameContents_iff holder hnewer]
    intro p
    rw [← hpatched p, patch_of_isEmpty h]
  · intro h
    rw [sameContents_iff holder hnewer] at h
    have hkept : ∀ e ∈ newer.toList, ¬older.supersedes e := by
      intro e he hsupersedes
      have hsame := h e.path
      rw [hnewer.mem_toList.1 he] at hsame
      rcases hsupersedes with hnone | ⟨old, hold, hfile, hdiffers⟩
      · rw [hnone] at hsame
        cases hsame
      · rw [hold] at hsame
        cases hdirectory : old.directory with
        | true => simp [Entry.file?, hdirectory, hfile] at hsame
        | false =>
          obtain rfl : old = e := by simpa [Entry.file?, hdirectory, hfile] using hsame
          simp [Entry.differs] at hdiffers
    simp only [Diff.isEmpty, Bool.and_eq_true, List.isEmpty_iff]
    refine ⟨List.append_eq_nil_iff.1 (List.eq_nil_iff_forall_not_mem.2 fun e he => ?_),
      List.eq_nil_iff_forall_not_mem.2 fun p hp => ?_⟩
    · obtain ⟨hmem, hsupersedes⟩ := mem_added_append_changed.1 he
      exact hkept e hmem hsupersedes
    · obtain ⟨⟨old, hold⟩, hnone⟩ := mem_removed.1 hp
      have hsame := h p
      rw [hold, hnone] at hsame
      cases hsame

/-! ## The order of a difference -/

/-- The parts of a difference are in the order of paths and have no path in common, and what is added comes before all
that is added below it. -/
structure Diff.Orderly (d : Catalog.Diff) : Prop where
  added : d.added.Pairwise fun x y => x.path < y.path
  changed : d.changed.Pairwise fun x y => x.path < y.path
  removed : d.removed.Pairwise (· < ·)
  addedNotChanged : ∀ x ∈ d.added, ∀ y ∈ d.changed, x.path ≠ y.path
  addedNotRemoved : ∀ x ∈ d.added, x.path ∉ d.removed
  changedNotRemoved : ∀ x ∈ d.changed, x.path ∉ d.removed
  above : ∀ before e after, d.added = before ++ e :: after → ∀ x ∈ d.added, Entry.CutsTo e.path x.path → x ∈ before

theorem increasing_paths (c : Catalog) : c.paths.Pairwise (· < ·) := by
  rw [paths, Table.keys, List.pairwise_map]
  exact c.entries.increasing.imp compareOfLessAndEq_eq_lt.1

theorem orderly_diff (older : Catalog) (hnewer : newer.Keyed) : (older.diff newer).Orderly where
  added := hnewer.increasing.filter _
  changed := hnewer.increasing.filter _
  removed := older.increasing_paths.filter _
  addedNotChanged x hx y hy hpath := by
    obtain ⟨-, old, hold, -⟩ := mem_changed.1 hy
    rw [← hpath, (mem_added.1 hx).2] at hold
    cases hold
  addedNotRemoved x hx hremoved := by
    obtain ⟨old, hold⟩ := (mem_removed.1 hremoved).1
    rw [(mem_added.1 hx).2] at hold
    cases hold
  changedNotRemoved x hx hremoved := by
    have hget := hnewer.mem_toList.1 (mem_changed.1 hx).1
    rw [(mem_removed.1 hremoved).2] at hget
    cases hget
  above before e after hsplit x hx hcuts := mem_before_of_lt hnewer hsplit hx (Entry.lt_of_cutsTo hcuts)

/-! ## Differences one after the other -/

/-- Patched with the difference to a newer catalog, a catalog has the paths and files of the newer one, and from there the
next difference leads to the one after. The difference is empty exactly if there is nothing to do, and it is in order. -/
theorem patches_follow_catalogs (first second third : List Entry) (hnext : SameKinds (ofList first) (ofList second))
    (hlast : SameKinds (ofList second) (ofList third)) :
    let patched := (ofList first).patch ((ofList first).diff (ofList second))
    SameContents patched (ofList second) ∧
      SameContents (patched.patch ((ofList second).diff (ofList third))) (ofList third) ∧
      (((ofList first).diff (ofList second)).isEmpty = true ↔ SameContents (ofList first) (ofList second)) ∧
      ((ofList first).diff (ofList second)).Orderly := by
  intro patched
  have hfirst := keyed_ofList first
  have hsecond := keyed_ofList second
  have hpatched : SameContents patched (ofList second) :=
    sameContents_patch hfirst hfirst hsecond (.refl _) hnext
  exact ⟨hpatched, sameContents_patch (hfirst.patch _) hsecond (keyed_ofList third) hpatched hlast,
    isEmpty_diff_iff hfirst hsecond hnext, orderly_diff _ hsecond⟩

/-- A file changes below a directory that comes to be implied by another file, one file goes and comes back, and two come
below a new directory. -/
theorem patches_follow_comesBack :
    let first : List Entry := [⟨"d/a", "a1", 1, 1, false⟩, ⟨"d/b", "b1", 2, 2, false⟩, ⟨"x", "x1", 3, 3, false⟩]
    let second : List Entry := [⟨"d/b", "b2", 2, 9, false⟩, ⟨"d/a", "a1", 1, 1, false⟩, ⟨"n/m/c", "c1", 4, 4, false⟩]
    let third : List Entry := [⟨"d/b", "b2", 2, 9, false⟩, ⟨"x", "x1", 3, 3, false⟩, ⟨"n/e", "e1", 5, 5, false⟩]
    let patched := (ofList first).patch ((ofList first).diff (ofList second))
    SameKinds (ofList first) (ofList second) ∧ SameKinds (ofList second) (ofList third) ∧ patched ≠ ofList second ∧
      SameContents patched (ofList second) ∧
      SameContents (patched.patch ((ofList second).diff (ofList third))) (ofList third) ∧
      ((ofList first).diff (ofList second)).Orderly := by
  intro first second third patched
  have hnext : SameKinds (ofList first) (ofList second) := by decide +kernel
  have hlast : SameKinds (ofList second) (ofList third) := by decide +kernel
  obtain ⟨hpatched, htwice, -, horderly⟩ := patches_follow_catalogs first second third hnext hlast
  exact ⟨hnext, hlast, by decide +kernel, hpatched, htwice, horderly⟩

end Catalog

end OnDemand
