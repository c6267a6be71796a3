import OnDemand.Proofs.Catalog.Contents
import OnDemand.Proofs.Store.Listing
import OnDemand.Store.Catalog

/-!
# What a loaded catalog holds

An index object that can be read and describes something is an entry at what its key has below the directory of the
index. The catalog holds these entries and the directories that they imply, whatever else is listed and in whatever
order.
-/

namespace OnDemand

namespace Index

variable {path path' text : String} {e : Entry}

theorem parse?_eq_some (h : parse? path text = some e) :
    e.path = String.ofList (Text.trimBy (· = '/') path.toList) ∧ e.directory = false := by
  simp only [parse?, Option.bind_eq_bind, Option.bind_eq_some_iff] at h
  obtain ⟨size, -, mtime, -, object, -, h⟩ := h
  obtain rfl := Option.some.inj h
  exact ⟨rfl, rfl⟩

/-- Whether a text describes something does not depend on the path. -/
theorem exists_parse? (h : parse? path text = some e) (path' : String) : ∃ e', parse? path' text = some e' := by
  simp only [parse?, Option.bind_eq_bind, Option.bind_eq_some_iff] at h ⊢
  obtain ⟨size, hsize, mtime, hmtime, object, hobject, -⟩ := h
  exact ⟨_, size, hsize, mtime, hmtime, object, hobject, rfl⟩

/-- What is taken off the keys of an index: its directory, but nothing if that is not in normal form. -/
def stem (remotePrefix : String) : String :=
  if Store.IsNormal (directory remotePrefix) then directory remotePrefix else ""

theorem stem_cases (remotePrefix : String) :
    (Store.IsNormal (directory remotePrefix) ∧ stem remotePrefix = directory remotePrefix) ∨
      (¬ Store.IsNormal (directory remotePrefix) ∧ stem remotePrefix = "") := by
  unfold stem
  split
  · exact .inl ⟨‹_›, rfl⟩
  · exact .inr ⟨‹_›, rfl⟩

end Index

namespace Store.IsNormal

variable {stem path : String}

/-! ## What is below a directory -/

/-- Below a directory, only that directory itself and what ends in a slash are directories. -/
theorem isDirectoryKey_append (h : IsNormal (stem ++ path)) (hstem : stem = "" ∨ isDirectoryKey stem = true) :
    isDirectoryKey (stem ++ path) = true ↔ path = "" ∨ path.toList.getLast? = some '/' := by
  by_cases hpath : path = ""
  · subst hpath
    rw [String.append_empty] at h ⊢
    have hdirectory := hstem.resolve_left fun he => h.nonempty (by rw [he]; rfl)
    exact ⟨fun _ => .inl rfl, fun _ => hdirectory⟩
  · simp [isDirectoryKey, hpath]

/-- The path of an object below a directory has no slash at either end. -/
theorem trim_path (h : IsNormal (stem ++ path)) (hstem : stem = "" ∨ isDirectoryKey stem = true)
    (hfile : isDirectoryKey (stem ++ path) = false) :
    String.ofList (Text.trimBy (· = '/') path.toList) = path := by
  have hpath := mt (h.isDirectoryKey_append hstem).2 (by simp [hfile])
  rw [Text.trimBy_eq_self, String.ofList_toList]
  · intro c hc
    apply decide_eq_false
    rcases hstem with rfl | hstem
    · exact (h.front c (by rwa [String.empty_append])).2
    · have hsingle := h.single
      rw [String.toList_append, List.isChain_append] at hsingle
      exact hsingle.2.2 '/' (eq_of_beq hstem) c hc rfl
  · intro c hc
    exact decide_eq_false fun he => hpath (.inr (he ▸ hc))

end Store.IsNormal

namespace ObjectStore

variable {s : ObjectStore} {objects : Store.Memory} {stem path key remotePrefix : String} {e : Entry}

/-- The object at `stem ++ path` can be read and describes `e` at `path`. -/
structure Indexes (s : ObjectStore) (objects : Store.Memory) (stem path : String) (e : Entry) : Prop where
  file : Store.isDirectoryKey (stem ++ path) = false
  describes : ∃ body, objects.get? (stem ++ path) = some body ∧ s.read (stem ++ path) = .ok body ∧
    Index.parse? path (Text.Utf8.decode body) = some e

theorem indexes_relisted {order : List String → List String} :
    (s.relisted order).Indexes objects stem path e ↔ s.Indexes objects stem path e := by
  constructor
  · intro h
    exact ⟨h.file, h.describes⟩
  · intro h
    exact ⟨h.file, h.describes⟩

/-- The entries that the catalog below `remotePrefix` is made of. -/
def Indexed (s : ObjectStore) (objects : Store.Memory) (remotePrefix path : String) (e : Entry) : Prop :=
  Store.IsBelow (Index.directory remotePrefix) (Index.stem remotePrefix ++ path) ∧
    s.Indexes objects (Index.stem remotePrefix) path e

theorem relativePath_append {directory : String} (path : String) :
    relativePath directory (directory ++ path) = path := by
  rw [relativePath, String.toList_append, Text.after?_eq_some.2 rfl, Option.getD_some, String.ofList_toList]

theorem relativePath_of_apart {directory : String} (h : ¬ directory.toList <+: key.toList) :
    relativePath directory key = key := by
  cases hrest : Text.after? directory.toList key.toList with
  | none => rw [relativePath, hrest, Option.getD_none, String.ofList_toList]
  | some rest => exact absurd ⟨rest, (Text.after?_eq_some.1 hrest).symm⟩ h

theorem Indexes.entry (hi : s.Indexes objects stem path e) (h : s.Presents objects)
    (hstem : stem = "" ∨ Store.isDirectoryKey stem = true) : e.path = path ∧ e.directory = false := by
  obtain ⟨body, hbody, -, hparse⟩ := hi.describes
  obtain ⟨hpath, hdirectory⟩ := Index.parse?_eq_some hparse
  exact ⟨hpath.trans ((h.normal hbody).trim_path hstem hi.file), hdirectory⟩

theorem indexEntry?_eq_some {directory : String} (h : s.Presents objects)
    (hstem : stem = "" ∨ Store.isDirectoryKey stem = true) (hkey : objects.contains (stem ++ path) = true)
    (hrelative : relativePath directory (stem ++ path) = path) :
    s.indexEntry? directory (stem ++ path) = some e ↔ s.Indexes objects stem path e := by
  obtain ⟨body, hbody⟩ := Table.contains_iff.1 hkey
  have hdirectory := (h.normal hbody).isDirectoryKey_append hstem
  unfold indexEntry?
  simp only [hrelative, ← hdirectory]
  cases hfile : Store.isDirectoryKey (stem ++ path) with
  | true =>
    simp only [if_true, reduceCtorEq, false_iff]
    exact fun hi => absurd hi.file (by simp [hfile])
  | false =>
    simp only [Bool.false_eq_true, if_false]
    cases hread : s.read (stem ++ path) with
    | error failure =>
      simp only [reduceCtorEq, false_iff]
      rintro ⟨-, body', -, hread', -⟩
      rw [hread] at hread'
      cases hread'
    | ok bytes =>
      obtain rfl := h.reads hbody hread
      constructor
      · exact fun hparse => ⟨hfile, bytes, hbody, hread, hparse⟩
      · rintro ⟨-, body', hbody', -, hparse⟩
        rw [hbody] at hbody'
        rwa [Option.some.inj hbody']

/-- What is listed as below an index is the stem of the index and the path that it is taken for. -/
theorem exists_path (hkey : Store.IsNormal key) (hbelow : Store.IsBelow (Index.directory remotePrefix) key) :
    ∃ path, key = Index.stem remotePrefix ++ path ∧ relativePath (Index.directory remotePrefix) key = path := by
  rcases Index.stem_cases remotePrefix with ⟨hnormal, hstem⟩ | ⟨hnormal, hstem⟩
  · rw [hstem]
    rw [Store.IsBelow, Store.normalKey_eq_self hnormal] at hbelow
    have htop : Index.directory remotePrefix ≠ "/" := fun he => (hnormal.front '/' (by rw [he]; rfl)).2 rfl
    obtain ⟨rest, hrest⟩ := hbelow.resolve_left htop
    have hjoined : key = Index.directory remotePrefix ++ String.ofList rest := by
      rw [← String.toList_inj, String.toList_append, String.toList_ofList, hrest]
    exact ⟨_, hjoined, by rw [hjoined, relativePath_append]⟩
  -- No key in normal form starts with a directory that is not in normal form.
  · refine ⟨key, by rw [hstem, String.empty_append], relativePath_of_apart fun hdirectory => hnormal ?_⟩
    apply hkey.of_start hdirectory
    · intro he
      have hlast := Store.getLast?_directory remotePrefix
      rw [he] at hlast
      cases hlast
    · rw [Store.getLast?_directory]
      intro c hc
      cases hc
      rfl

theorem relativePath_stem (hkey : Store.IsNormal (Index.stem remotePrefix ++ path))
    (hbelow : Store.IsBelow (Index.directory remotePrefix) (Index.stem remotePrefix ++ path)) :
    relativePath (Index.directory remotePrefix) (Index.stem remotePrefix ++ path) = path := by
  obtain ⟨path', hjoined, hrelative⟩ := exists_path hkey hbelow
  rw [hrelative, ← String.append_right_inj (Index.stem remotePrefix), hjoined]

theorem isDirectoryKey_stem (remotePrefix : String) :
    Index.stem remotePrefix = "" ∨ Store.isDirectoryKey (Index.stem remotePrefix) = true := by
  rcases Index.stem_cases remotePrefix with ⟨-, hstem⟩ | ⟨-, hstem⟩
  · exact .inr (by rw [hstem, Store.isDirectoryKey, Store.getLast?_directory]; rfl)
  · exact .inl hstem

theorem mem_files (h : s.Presents objects) {keys : List String}
    (hkeys : ∀ key, key ∈ keys ↔ objects.contains key = true ∧ Store.IsBelow (Index.directory remotePrefix) key) :
    e ∈ keys.filterMap (s.indexEntry? (Index.directory remotePrefix)) ↔ s.Indexed objects remotePrefix e.path e := by
  have hstem := isDirectoryKey_stem remotePrefix
  rw [List.mem_filterMap]
  constructor
  · rintro ⟨key, hkey, he⟩
    obtain ⟨hcontains, hbelow⟩ := (hkeys key).1 hkey
    obtain ⟨body, hbody⟩ := Table.contains_iff.1 hcontains
    obtain ⟨path, rfl, hrelative⟩ := exists_path (h.normal hbody) hbelow
    have hi := (indexEntry?_eq_some h hstem hcontains hrelative).1 he
    rw [(hi.entry h hstem).1]
    exact ⟨hbelow, hi⟩
  · rintro ⟨hbelow, hi⟩
    obtain ⟨body, hbody, -⟩ := hi.describes
    have hcontains := Table.contains_iff.2 ⟨body, hbody⟩
    have hrelative := relativePath_stem (h.normal hbody) hbelow
    exact ⟨_, (hkeys _).2 ⟨hcontains, hbelow⟩, (indexEntry?_eq_some h hstem hcontains hrelative).2 hi⟩

theorem Indexed.entry (hi : s.Indexed objects remotePrefix path e) (h : s.Presents objects) :
    e.path = path ∧ e.directory = false :=
  hi.2.entry h (isDirectoryKey_stem remotePrefix)

theorem Indexed.unique (hi : s.Indexed objects remotePrefix path e) {e' : Entry}
    (hi' : s.Indexed objects remotePrefix path e') : e = e' := by
  obtain ⟨body, hbody, -, hparse⟩ := hi.2.describes
  obtain ⟨body', hbody', -, hparse'⟩ := hi'.2.describes
  obtain rfl := Option.some.inj (hbody.symm.trans hbody')
  exact Option.some.inj (hparse.symm.trans hparse')

end ObjectStore

namespace Catalog

variable {c c' : Catalog} {indexed : String → Entry → Prop} {path : String} {e : Entry}

/-! ## Catalogs of an index -/

/-- `c` holds the entries that are indexed at their paths, and beside them the directories that they imply. -/
structure Covers (indexed : String → Entry → Prop) (c : Catalog) : Prop where
  file : ∀ {path e}, indexed path e → c.get? path = some e
  entry : ∀ {path e}, c.get? path = some e → indexed path e ∨
    ∃ below f, indexed below f ∧ path ∈ Entry.ancestors below ∧ e = .impliedDirectory path f.mtime
  ancestor : ∀ {path e above}, indexed path e → above ∈ Entry.ancestors path → ∃ d, c.get? above = some d

theorem covers_ofList {files : List Entry} (hfiles : ∀ e, e ∈ files ↔ indexed e.path e)
    (hpath : ∀ {path e}, indexed path e → e.path = path)
    (hunique : ∀ {path e e'}, indexed path e → indexed path e' → e = e') : (ofList files).Covers indexed where
  file {path e} hi := by
    have he := hpath hi
    subst he
    obtain ⟨g, hg, hgpath, hget⟩ := (holds_ofList files).file e ((hfiles e).2 hi)
    rw [hget, hunique hi (hgpath ▸ (hfiles g).1 hg)]
  entry hget := by
    obtain ⟨rfl, hmem | ⟨f, hf, habove, himplied⟩⟩ := (holds_ofList files).entry hget
    · exact .inl ((hfiles _).1 hmem)
    · exact .inr ⟨f.path, f, (hfiles f).1 hf, habove, himplied⟩
  ancestor {path e above} hi habove := by
    have he := hpath hi
    subst he
    exact (holds_ofList files).ancestor e ((hfiles e).2 hi) above habove

theorem Covers.congr (h : c.Covers indexed) {indexed' : String → Entry → Prop}
    (hsame : ∀ path e, indexed path e ↔ indexed' path e) : c.Covers indexed' := by
  have heq : indexed = indexed' := by
    funext path e
    exact propext (hsame path e)
  exact heq ▸ h

theorem Covers.file_iff (h : c.Covers indexed) (hfile : e.directory = false) :
    c.get? path = some e ↔ indexed path e := by
  constructor
  · intro hget
    rcases h.entry hget with hi | ⟨below, f, -, -, rfl⟩
    · exact hi
    · cases hfile
  · exact h.file

theorem Covers.exists_get? (h : c.Covers indexed) (h' : c'.Covers indexed) (hget : c.get? path = some e) :
    ∃ e', c'.get? path = some e' := by
  rcases h.entry hget with hi | ⟨below, f, hi, habove, -⟩
  · exact ⟨e, h'.file hi⟩
  · exact h'.ancestor hi habove

theorem Covers.eq_empty (h : c.Covers indexed) (hnone : ∀ path e, ¬ indexed path e) : c = .empty := by
  have hentries : c.entries = ∅ := Table.ext_get? fun path => by
    cases hget : c.get? path with
    | none => exact hget
    | some e =>
      rcases h.entry hget with hi | ⟨below, f, hi, -⟩
      · exact absurd hi (hnone _ _)
      · exact absurd hi (hnone _ _)
  rw [empty, ← hentries]

/-- What is indexed settles which paths a catalog has, and what it has for a file. -/
theorem Covers.same (h : c.Covers indexed) (h' : c'.Covers indexed) :
    (∀ path, (c'.get? path).isSome = (c.get? path).isSome) ∧
      ∀ path e, e.directory = false → (c'.get? path = some e ↔ c.get? path = some e) := by
  constructor
  · intro path
    rw [Bool.eq_iff_iff, Option.isSome_iff_exists, Option.isSome_iff_exists]
    exact ⟨fun ⟨e, hget⟩ => h'.exists_get? h hget, fun ⟨e, hget⟩ => h.exists_get? h' hget⟩
  · intro path e hfile
    rw [h'.file_iff hfile, h.file_iff hfile]

end Catalog

namespace ObjectStore

variable {s s' : ObjectStore} {objects objects' : Store.Memory} {remotePrefix path : String} {e : Entry}

theorem catalogAt_covers (h : s.Presents objects) (remotePrefix : String) :
    ∃ c, s.catalogAt remotePrefix = .ok c ∧ c.Covers (s.Indexed objects remotePrefix) := by
  obtain ⟨keys, hkeys, -, hmem⟩ := h.lists (Index.directory remotePrefix)
  refine ⟨.ofList (keys.filterMap (s.indexEntry? (Index.directory remotePrefix))), ?_, ?_⟩
  · rw [catalogAt, hkeys]
    rfl
  · exact Catalog.covers_ofList (fun e => mem_files h hmem) (fun hi => (hi.entry h).1) fun hi hi' => hi.unique hi'

theorem indexed_iff (hdirectory : Store.IsNormal (Index.directory remotePrefix)) :
    s.Indexed objects remotePrefix path e ↔ s.Indexes objects (Index.directory remotePrefix) path e := by
  rw [Indexed, Index.stem, if_pos hdirectory, Store.IsBelow, Store.normalKey_eq_self hdirectory, String.toList_append]
  exact and_iff_right (.inr (List.prefix_append _ _))

/-- The keys of the index objects that can be read and describe something, in the order in which they are listed. -/
def indexKeys (s : ObjectStore) (directory : String) : List String :=
  match s.list directory with
  | .ok keys => keys.filter fun key => (s.indexEntry? directory key).isSome
  | .error _ => []

theorem indexKeys_eq {directory : String} {keys : List String} (hkeys : s.list directory = .ok keys) :
    s.indexKeys directory = keys.filter fun key => (s.indexEntry? directory key).isSome := by
  simp only [indexKeys, hkeys]

theorem catalogAt_eq {keys : List String} (hkeys : s.list (Index.directory remotePrefix) = .ok keys) :
    s.catalogAt remotePrefix = .ok (.ofList
      ((s.indexKeys (Index.directory remotePrefix)).filterMap (s.indexEntry? (Index.directory remotePrefix)))) := by
  have hskip : (fun key => if (s.indexEntry? (Index.directory remotePrefix) key).isSome = true then
      s.indexEntry? (Index.directory remotePrefix) key else none) = s.indexEntry? (Index.directory remotePrefix) := by
    funext key
    cases s.indexEntry? (Index.directory remotePrefix) key <;> rfl
  rw [indexKeys_eq hkeys, List.filterMap_filter, hskip, catalogAt, hkeys]
  rfl

theorem listed_of_mem_indexKeys (h : s.Presents objects) {key : String}
    (hkey : key ∈ s.indexKeys (Index.directory remotePrefix)) :
    objects.contains key = true ∧ Store.IsBelow (Index.directory remotePrefix) key := by
  obtain ⟨keys, hkeys, -, hmem⟩ := h.lists (Index.directory remotePrefix)
  rw [indexKeys_eq hkeys] at hkey
  exact (hmem key).1 (List.mem_filter.1 hkey).1

/-- What cannot be read or describes nothing may be listed or not. -/
theorem catalogAt_eq_of_indexKeys (h : s.Presents objects) (h' : s'.Presents objects')
    (hindexed : ∀ path e, s'.Indexed objects' remotePrefix path e ↔ s.Indexed objects remotePrefix path e)
    (hsame : s'.indexKeys (Index.directory remotePrefix) = s.indexKeys (Index.directory remotePrefix)) :
    s'.catalogAt remotePrefix = s.catalogAt remotePrefix := by
  obtain ⟨keys, hkeys, -⟩ := h.lists (Index.directory remotePrefix)
  obtain ⟨keys', hkeys', -⟩ := h'.lists (Index.directory remotePrefix)
  have hstem := isDirectoryKey_stem remotePrefix
  have hentry : ∀ key ∈ s.indexKeys (Index.directory remotePrefix),
      s'.indexEntry? (Index.directory remotePrefix) key = s.indexEntry? (Index.directory remotePrefix) key := by
    intro key hkey
    obtain ⟨hcontains, hbelow⟩ := listed_of_mem_indexKeys h hkey
    obtain ⟨hcontains', -⟩ := listed_of_mem_indexKeys h' (hsame ▸ hkey)
    obtain ⟨body, hbody⟩ := Table.contains_iff.1 hcontains
    obtain ⟨path, rfl, hrelative⟩ := exists_path (h.normal hbody) hbelow
    apply Option.ext
    intro e
    rw [indexEntry?_eq_some h hstem hcontains hrelative, indexEntry?_eq_some h' hstem hcontains' hrelative]
    exact ⟨fun hi => ((hindexed path e).1 ⟨hbelow, hi⟩).2, fun hi => ((hindexed path e).2 ⟨hbelow, hi⟩).2⟩
  rw [catalogAt_eq hkeys, catalogAt_eq hkeys', hsame, List.filterMap_congr hentry]

/-- The catalog below a prefix in normal form holds exactly what the index objects say that can be read and describe
something, and the directories that this implies. For two stores with the same such objects, whatever else they keep
and in whatever order they list it, the catalogs have the same paths and the same files; they are equal if both list
these objects in the same order. -/
theorem catalog_reads_index (h : s.Presents objects) (hslashes : Store.IsNormalUpToSlashes remotePrefix) :
    (∃ c, s.catalogAt remotePrefix = .ok c ∧ c.Covers (s.Indexes objects (Index.directory remotePrefix))) ∧
    ∀ s' objects', ObjectStore.Presents s' objects' →
      (∀ path e, s'.Indexes objects' (Index.directory remotePrefix) path e ↔
        s.Indexes objects (Index.directory remotePrefix) path e) →
      (∃ c c', s.catalogAt remotePrefix = .ok c ∧ s'.catalogAt remotePrefix = .ok c' ∧
        (∀ path, (c'.get? path).isSome = (c.get? path).isSome) ∧
        ∀ path e, e.directory = false → (c'.get? path = some e ↔ c.get? path = some e)) ∧
      (s'.indexKeys (Index.directory remotePrefix) = s.indexKeys (Index.directory remotePrefix) →
        s'.catalogAt remotePrefix = s.catalogAt remotePrefix) := by
  have hdirectory := Store.isNormal_directory hslashes
  obtain ⟨c, hc, hcovers⟩ := catalogAt_covers h remotePrefix
  refine ⟨⟨c, hc, hcovers.congr fun path e => indexed_iff hdirectory⟩, fun s' objects' h' hindexes => ?_⟩
  have hindexed : ∀ path e, s'.Indexed objects' remotePrefix path e ↔ s.Indexed objects remotePrefix path e := by
    intro path e
    rw [indexed_iff hdirectory, indexed_iff hdirectory, hindexes]
  constructor
  · obtain ⟨c', hc', hcovers'⟩ := catalogAt_covers h' remotePrefix
    exact ⟨c, c', hc, hc', hcovers.same (hcovers'.congr hindexed)⟩
  · exact catalogAt_eq_of_indexKeys h h' hindexed

/-- A file that is also a directory, a file in a directory of its own, and a text, a marker and objects outside that
describe nothing. -/
def mixedIndex : Store.Memory :=
  .ofList [("team/index/a", Text.Utf8.encode "object=o1\nsize=3\nmtime=10\n"),
    ("team/index/a/b", Text.Utf8.encode "object=o2\n"), ("team/index/sub/c", Text.Utf8.encode "object=o3\nmtime=7\n"),
    ("team/index/broken", Text.Utf8.encode "nothing useful"), ("team/index/dir/", Text.Utf8.encode "object=o4\n"),
    ("team/indexed", Text.Utf8.encode "object=o5\n"), ("other/index/z", Text.Utf8.encode "object=o6\n")]

/-- The text that describes nothing comes first. -/
def brokenFirst (keys : List String) : List String :=
  keys.filter (· = "team/index/broken") ++ keys.filter fun key => !decide (key = "team/index/broken")

theorem catalog_reads_index_mixed :
    ∃ c, mixedIndex.store.catalogAt "team//" = .ok c ∧ c.get? "a" = some ⟨"a", "o1", 3, 10, false⟩ ∧
      c.get? "a/b" = some ⟨"a/b", "o2", 0, 0, false⟩ ∧
      (∃ c', (mixedIndex.store.relisted List.reverse).catalogAt "team//" = .ok c' ∧
        (c'.get? "sub").isSome = (c.get? "sub").isSome) ∧
      (mixedIndex.store.relisted brokenFirst).catalogAt "team//" = .ok c := by
  have hpresents : mixedIndex.store.Presents mixedIndex := Store.Memory.presents (by decide +kernel)
  have hslashes : Store.IsNormalUpToSlashes "team//" := ⟨"team", 2, by decide, rfl⟩
  obtain ⟨⟨c, hc, hcovers⟩, hsame⟩ := catalog_reads_index hpresents hslashes
  have hreversed := hpresents.relisted List.reverse_perm
  obtain ⟨⟨d, d', hd, hd', hpaths, -⟩, -⟩ := hsame _ _ hreversed fun _ _ => indexes_relisted
  have hbrokenFirst := hpresents.relisted fun keys => List.filter_append_perm (· = "team/index/broken") keys
  obtain ⟨-, hequal⟩ := hsame _ _ hbrokenFirst fun _ _ => indexes_relisted
  obtain rfl := Except.ok.inj (hc.symm.trans hd)
  have ha : mixedIndex.store.Indexes mixedIndex (Index.directory "team//") "a" ⟨"a", "o1", 3, 10, false⟩ :=
    ⟨by decide +kernel, Text.Utf8.encode "object=o1\nsize=3\nmtime=10\n", by decide +kernel, by decide +kernel,
      by decide +kernel⟩
  have hb : mixedIndex.store.Indexes mixedIndex (Index.directory "team//") "a/b" ⟨"a/b", "o2", 0, 0, false⟩ :=
    ⟨by decide +kernel, Text.Utf8.encode "object=o2\n", by decide +kernel, by decide +kernel, by decide +kernel⟩
  have hkeys : (mixedIndex.store.relisted brokenFirst).indexKeys (Index.directory "team//") =
    mixedIndex.store.indexKeys (Index.directory "team//") := by decide +kernel
  exact ⟨c, hc, hcovers.file ha, hcovers.file hb, ⟨d', hd', hpaths "sub"⟩, (hequal hkeys).trans hc⟩

end ObjectStore

end OnDemand
