import OnDemand.Proofs.Catalog.Regular
import OnDemand.Proofs.Facility.Ready
import OnDemand.Proofs.Reconcile.Placeable

/-!
# Placeholders follow the catalog

Below a root that stands alone, applying one difference after the other succeeds at every entry, and the placeholders
are then those of the last catalog, whatever stood in the catalogs between.
-/

namespace OnDemand

/-- The placeholder is that of `e`. -/
structure Placeholder.Shows (p : Placeholder) (e : Entry) : Prop where
  kind : p.isDirectory = e.directory
  identity : e.directory = false → p.identity = .ofText e.object
  size : e.directory = false → p.metadata.size = e.size
  written : e.directory = false → p.metadata.written = Filetime.ofUnix e.mtime
  inSync : e.directory = false → p.inSync = true

theorem Placeholder.Mirrors.shows {p : Placeholder} {e : Entry} (h : p.Mirrors e) (hkind : p.isDirectory = e.directory)
    (hmtime : e.mtime ≠ -Filetime.epochDelta) : p.Shows e :=
  ⟨hkind, fun _ => h.identity, fun _ => h.size, fun _ => h.written hmtime, fun _ => h.inSync⟩

theorem Placeholder.shows_directory {p : Placeholder} {e : Entry} (hp : p.isDirectory = true)
    (he : e.directory = true) : p.Shows e where
  kind := hp.trans he.symm
  identity hfile := by rw [he] at hfile; cases hfile
  size hfile := by rw [he] at hfile; cases hfile
  written hfile := by rw [he] at hfile; cases hfile
  inSync hfile := by rw [he] at hfile; cases hfile

/-- A placeholder shows an entry as well as it shows another one of the same contents. -/
theorem Placeholder.Shows.congr {p : Placeholder} {e old : Entry} (h : p.Shows old)
    (hkind : old.directory = e.directory)
    (hsame : e.directory = false → old.object = e.object ∧ old.size = e.size ∧ old.mtime = e.mtime) : p.Shows e where
  kind := h.kind.trans hkind
  identity hfile := by rw [← (hsame hfile).1]; exact h.identity (hkind.trans hfile)
  size hfile := by rw [← (hsame hfile).2.1]; exact h.size (hkind.trans hfile)
  written hfile := by rw [← (hsame hfile).2.2]; exact h.written (hkind.trans hfile)
  inSync hfile := h.inSync (hkind.trans hfile)

/-- The placeholder of `e` stands below `root`. -/
def Facility.Shown (root : Path) (e : Entry) (f : Facility) : Prop :=
  ∃ p, f.placeholder? (e.pathIn root) = some p ∧ p.Shows e

namespace Reconcile

variable {root : Path} {e d : Entry} {x : Errand} {b : Bridge Facility} {D : String → Prop}
  {c newer : Catalog} {xs : List Errand}

/-! ## One errand -/

theorem below_parentIn (h : Entry.IsPlain e.path) : root.route <+: (e.parentIn root).route := by
  rw [Entry.route_parentIn h]
  split
  · exact List.prefix_refl _
  · exact Entry.isPrefix_place ..

/-- The bridge with other placeholders. -/
def withPlaceholders (t : Table Route Placeholder) (b : Bridge Facility) : Bridge Facility :=
  { b with facility := { b.facility with placeholders := t } }

/-- The errand for `e` succeeds, and nothing but the table of placeholders has changed. -/
def Succeeds (root : Path) (e : Entry) (b : Bridge Facility) (r : Except PlaceholderError Placed × Bridge Facility) : Prop :=
  ∃ placed t, r = (.ok placed, withPlaceholders t b) ∧ (t.get? (e.pathIn root).route).isSome = true

theorem place_succeeds (h : b.facility.Ready root) (hplain : Entry.IsPlain x.entry.path)
    (hfits : Bridge.fitsFacility (.ofText x.entry.object) x.entry.size = true)
    (hparent : b.facility.Holds root (x.entry.parentIn root)) : Succeeds root x.entry b (x.place root b) := by
  have htakes := (h.takes_iff (below_parentIn hplain)).2 hparent
  rw [place_of_placeable ⟨h.calm .create, h.calm .update⟩ ⟨hplain.name, hfits, htakes⟩]
  exact ⟨_, _, rfl, by rw [Table.get?_insert_self]; rfl⟩

/-! ## The errands of one difference -/

/-- The facility is ready, and what stands below `root` is a directory exactly at the paths in `D`. -/
structure Stage (root : Path) (D : String → Prop) (f : Facility) : Prop where
  ready : f.Ready root
  kind : ∀ {path p}, f.placeholders.get? (Entry.place root path) = some p → (p.isDirectory = true ↔ D path)

theorem holds_of_shown (hplain : Entry.IsPlain e.path)
    (h : e.parent ≠ "" → ∃ d, Entry.IsPlain d.path ∧ d.path = e.parent ∧ d.directory = true ∧ b.facility.Shown root d) :
    b.facility.Holds root (e.parentIn root) := by
  by_cases hparent : e.parent = ""
  · exact .inl (by rw [Entry.route_parentIn hplain, if_pos hparent])
  · obtain ⟨d, hd, hpath, hdirectory, p, hp, hshows⟩ := h hparent
    have hroute : (d.pathIn root).route = (e.parentIn root).route := by
      rw [Entry.route_pathIn root hd, hpath, Entry.route_parentIn hplain, if_neg hparent]
    refine .inr ⟨p, ?_, hshows.kind.trans hdirectory⟩
    rw [Facility.placeholder?, ← hroute]
    exact hp

/-- The errand for an entry of a catalog, and what it leaves of the placeholders of that catalog. -/
structure Done (root : Path) (D : String → Prop) (newer : Catalog) (e : Entry) (b : Bridge Facility)
    (r : Except PlaceholderError Placed × Bridge Facility) : Prop where
  ok : r.1.isOk = true
  stage : Stage root D r.2.facility
  shown : r.2.facility.Shown root e
  keeps : ∀ d ∈ newer.toList, b.facility.Shown root d → r.2.facility.Shown root d

theorem place_done (hnewer : newer.Regular D) (hx : x.entry ∈ newer.toList) (h : Stage root D b.facility)
    (hparent : x.entry.parent ≠ "" → ∃ d ∈ newer.toList, d.path = x.entry.parent ∧ d.directory = true ∧
      b.facility.Shown root d) : Done root D newer x.entry b (x.place root b) := by
  have hget := hnewer.keyed.mem_toList.1 hx
  have hplain := hnewer.plain hget
  have hroute := Entry.route_pathIn root hplain
  have hholds : b.facility.Holds root (x.entry.parentIn root) := holds_of_shown hplain fun hne => by
    obtain ⟨d, hd, hpath, hdirectory, hshown⟩ := hparent hne
    exact ⟨d, hnewer.plain_of_mem hd, hpath, hdirectory, hshown⟩
  obtain ⟨placed, t, hplace, hsome⟩ := place_succeeds h.ready hplain (hnewer.fits hget) hholds
  have hplacing := placing_place Facility.keeps root x b
  rw [hplace] at hplacing ⊢
  have hkind : ∀ {path p}, t.get? (Entry.place root path) = some p → (p.isDirectory = true ↔ D path) := by
    intro path p hp
    rcases hplacing.kind hp with ⟨q, hq, hkind⟩ | ⟨hplace, hkind⟩
    · rw [← hkind]
      exact h.kind hq
    · rw [hroute] at hplace
      rw [hkind, Entry.place_injective hplace]
      exact hnewer.kind hget
  have hshown : (withPlaceholders t b).facility.Shown root x.entry := by
    obtain ⟨p, hp⟩ := Option.isSome_iff_exists.1 hsome
    cases hdirectory : x.entry.directory with
    | true =>
      have hdir : p.isDirectory = true :=
        (hkind (by rw [← hroute]; exact hp)).2 ((hnewer.kind hget).1 hdirectory)
      exact ⟨p, hp, Placeholder.shows_directory hdir hdirectory⟩
    | false =>
      obtain ⟨q, hq, hmirrors⟩ := hplacing.mirrors rfl hdirectory
      obtain rfl := Option.some.inj (hp.symm.trans hq)
      have hkind : p.isDirectory = x.entry.directory :=
        Bool.eq_iff_iff.2 ((hkind (by rw [← hroute]; exact hp)).trans (hnewer.kind hget).symm)
      exact ⟨p, hp, hmirrors.shows hkind (hnewer.dated hget hdirectory)⟩
  refine ⟨rfl, ⟨h.ready.withPlaceholders t, hkind⟩, hshown, fun d hd hd' => ?_⟩
  by_cases hpath : d.path = x.entry.path
  · rw [hnewer.keyed.eq_of_path hd hx hpath]
    exact hshown
  · obtain ⟨p, hp, hshows⟩ := hd'
    refine ⟨p, ?_, hshows⟩
    have hne := mt (Entry.route_pathIn_inj root (hnewer.plain_of_mem hd) hplain).1 hpath
    exact (hplacing.get?_of_ne hne).trans hp

/-- The parent of every errand is there when its turn comes: it stood already, or its own errand was done before. -/
def ParentsFirst (root : Path) (newer : Catalog) (xs : List Errand) (b : Bridge Facility) : Prop :=
  ∀ before x after, xs = before ++ x :: after → x.entry.parent ≠ "" →
    ∃ d ∈ newer.toList, d.path = x.entry.parent ∧ d.directory = true ∧
      (b.facility.Shown root d ∨ ∃ y ∈ before, y.entry = d)

theorem carryOut_done (hnewer : newer.Regular D) (hxs : ∀ x ∈ xs, x.entry ∈ newer.toList)
    (h : Stage root D b.facility) (hparents : ParentsFirst root newer xs b) :
    (∀ a ∈ attempts root xs b, a.outcome.isOk = true) ∧ Stage root D (carryOut root xs b).facility ∧
      ∀ d ∈ newer.toList, (b.facility.Shown root d ∨ ∃ x ∈ xs, x.entry = d) →
        (carryOut root xs b).facility.Shown root d := by
  induction xs generalizing b with
  | nil =>
    rw [attempts_nil]
    exact ⟨fun _ ha => absurd ha List.not_mem_nil, h,
      fun d _ hd => hd.resolve_right fun ⟨_, hx, _⟩ => absurd hx List.not_mem_nil⟩
  | cons x xs ih =>
    have hdone : Done root D newer x.entry b (x.place root b) := by
      refine place_done hnewer (hxs x List.mem_cons_self) h fun hne => ?_
      obtain ⟨d, hd, hpath, hdirectory, hshown | ⟨y, hy, -⟩⟩ := hparents [] x xs rfl hne
      · exact ⟨d, hd, hpath, hdirectory, hshown⟩
      · cases hy
    have hrest : ParentsFirst root newer xs (x.place root b).2 := by
      rintro before y after rfl hne
      obtain ⟨d, hd, hpath, hdirectory, hshown | ⟨z, hz, rfl⟩⟩ := hparents (x :: before) y after rfl hne
      · exact ⟨d, hd, hpath, hdirectory, .inl (hdone.keeps d hd hshown)⟩
      · rcases List.mem_cons.1 hz with rfl | hz
        · exact ⟨_, hd, hpath, hdirectory, .inl hdone.shown⟩
        · exact ⟨_, hd, hpath, hdirectory, .inr ⟨z, hz, rfl⟩⟩
    obtain ⟨hok, hstage, hshown⟩ := ih (fun y hy => hxs y (List.mem_cons_of_mem x hy)) hdone.stage hrest
    rw [attempts_cons, carryOut_cons]
    refine ⟨fun a ha => ?_, hstage, fun d hd hd' => hshown d hd ?_⟩
    · rcases List.mem_cons.1 ha with rfl | ha
      · exact hdone.ok
      · exact hok a ha
    · rcases hd' with hd' | ⟨y, hy, rfl⟩
      · exact .inl (hdone.keeps d hd hd')
      · rcases List.mem_cons.1 hy with rfl | hy
        · exact .inl hdone.shown
        · exact .inr ⟨y, hy, rfl⟩

/-! ## One difference -/

/-- The placeholders are those of the catalog. -/
structure Settled (root : Path) (D : String → Prop) (c : Catalog) (f : Facility) : Prop extends Stage root D f where
  shown : ∀ e ∈ c.toList, f.Shown root e

/-- An entry that the difference passes over is shown already. -/
theorem Settled.passed_over (h : Settled root D c b.facility) (hc : c.Regular D) (hnewer : newer.Regular D)
    (he : e ∈ newer.toList) (hadded : e ∉ (c.diff newer).added) (hchanged : e ∉ (c.diff newer).changed) :
    b.facility.Shown root e := by
  obtain ⟨old, hold, hsame⟩ := Catalog.get?_of_passed_over he hadded hchanged
  have hpath : old.path = e.path := hc.keyed _ _ hold
  obtain ⟨p, hp, hshows⟩ := h.shown old (Catalog.mem_toList.2 ⟨_, hold⟩)
  have hkind := hc.toShaped.directory_eq hnewer.toShaped hold (hnewer.keyed.mem_toList.1 he)
  refine ⟨p, ?_, hshows.congr hkind hsame⟩
  have hplain := hnewer.plain_of_mem he
  rw [Facility.placeholder?, ← (Entry.route_pathIn_inj root (hpath ▸ hplain) hplain).2 hpath]
  exact hp

/-- A directory is never changed. -/
theorem not_mem_changed (hd : d.directory = true) : d ∉ (c.diff newer).changed := fun h => by
  obtain ⟨-, -, -, hfile, -⟩ := Catalog.mem_changed.1 h
  rw [hd] at hfile
  cases hfile

theorem parentsFirst_added (h : Settled root D c b.facility) (hc : c.Regular D) (hnewer : newer.Regular D) :
    ParentsFirst root newer ((c.diff newer).added.map (⟨·, true⟩)) b := by
  intro before x after hsplit hne
  obtain ⟨before', rest, hadded, hbefore, hrest⟩ := List.map_eq_append_iff.1 hsplit
  obtain ⟨e, after', rfl, rfl, -⟩ := List.map_eq_cons_iff.1 hrest
  have he : e ∈ (c.diff newer).added := by
    rw [hadded]
    exact List.mem_append_right _ List.mem_cons_self
  obtain ⟨d, hd, hdirectory⟩ := hnewer.parent (hnewer.keyed.mem_toList.1 (Catalog.mem_added.1 he).1) hne
  have hpath : d.path = e.parent := hnewer.keyed _ _ hd
  have hmem : d ∈ newer.toList := Catalog.mem_toList.2 ⟨_, hd⟩
  refine ⟨d, hmem, hpath, hdirectory, ?_⟩
  by_cases hnew : d ∈ (c.diff newer).added
  · have hlt : d.path < e.path := by
      rw [hpath]
      exact Entry.lt_of_mem_ancestors (Entry.parent_mem_ancestors hne)
    refine .inr ⟨⟨d, true⟩, ?_, rfl⟩
    rw [← hbefore]
    exact List.mem_map.2 ⟨d, Catalog.mem_before_of_lt hnewer.keyed hadded hnew hlt, rfl⟩
  · exact .inl (h.passed_over hc hnewer hmem hnew (not_mem_changed hdirectory))

/-- The run succeeds at every entry and leaves the placeholders of the newer catalog. -/
theorem run_settled (h : Settled root D c b.facility) (hc : c.Regular D) (hnewer : newer.Regular D) :
    (run root (c.diff newer) b).1.failed = 0 ∧ Settled root D newer (run root (c.diff newer) b).2.facility := by
  have hadded : ∀ x ∈ (c.diff newer).added.map (Errand.mk · true), x.entry ∈ newer.toList := fun x hx =>
    entry_mem_of_mem_errands (List.mem_append_left _ hx)
  have hchanged : ∀ x ∈ (c.diff newer).changed.map (Errand.mk · false), x.entry ∈ newer.toList := fun x hx =>
    entry_mem_of_mem_errands (List.mem_append_right _ hx)
  obtain ⟨hok, hstage, hshown⟩ := carryOut_done hnewer hadded h.toStage (parentsFirst_added h hc hnewer)
  -- After the additions all is shown but the files to be changed, so every parent is there.
  have hthere : ∀ d ∈ newer.toList, d ∉ (c.diff newer).changed →
      (carryOut root ((c.diff newer).added.map (Errand.mk · true)) b).facility.Shown root d := by
    intro d hd hsame
    refine hshown d hd ?_
    by_cases hnew : d ∈ (c.diff newer).added
    · exact .inr ⟨⟨d, true⟩, List.mem_map.2 ⟨d, hnew, rfl⟩, rfl⟩
    · exact .inl (h.passed_over hc hnewer hd hnew hsame)
  have hparents : ParentsFirst root newer ((c.diff newer).changed.map (Errand.mk · false))
      (carryOut root ((c.diff newer).added.map (Errand.mk · true)) b) := by
    rintro before x after hsplit hne
    have hx := hchanged x (by rw [hsplit]; exact List.mem_append_right _ List.mem_cons_self)
    obtain ⟨d, hd, hdirectory⟩ := hnewer.parent (hnewer.keyed.mem_toList.1 hx) hne
    have hmem : d ∈ newer.toList := Catalog.mem_toList.2 ⟨_, hd⟩
    exact ⟨d, hmem, hnewer.keyed _ _ hd, hdirectory, .inl (hthere d hmem (not_mem_changed hdirectory))⟩
  obtain ⟨hok', hstage', hshown'⟩ := carryOut_done hnewer hchanged hstage hparents
  refine ⟨failed_run_eq_zero.2 fun a ha => ?_, ?_⟩
  · rw [errands, attempts_append, List.mem_append] at ha
    exact ha.elim (hok a) (hok' a)
  · rw [run_eq, errands, carryOut_append]
    refine ⟨hstage', fun d hd => hshown' d hd ?_⟩
    by_cases hsame : d ∈ (c.diff newer).changed
    · exact .inr ⟨⟨d, false⟩, List.mem_map.2 ⟨d, hsame, rfl⟩, rfl⟩
    · exact .inl (hthere d hd hsame)

/-! ## A sequence of catalogs -/

/-- The runs that bring the placeholders from `current` to each catalog in turn: their tallies, and the last bridge. -/
def follow {σ : Type} [CloudFacility σ] (root : Path) : Catalog → List Catalog → Bridge σ → List Tally × Bridge σ
  | _, [], b => ([], b)
  | current, newer :: rest, b =>
    let (tally, b) := run root (current.diff newer) b
    let (tallies, b) := follow root newer rest b
    (tally :: tallies, b)

theorem follow_settled {catalogs : List Catalog} (h : Settled root D c b.facility) (hc : c.Regular D)
    (hcatalogs : ∀ n ∈ catalogs, n.Regular D) :
    (∀ t ∈ (follow root c catalogs b).1, t.failed = 0) ∧
      Settled root D (catalogs.getLast?.getD c) (follow root c catalogs b).2.facility := by
  induction catalogs generalizing c b with
  | nil => exact ⟨fun _ ht => absurd ht List.not_mem_nil, h⟩
  | cons newer rest ih =>
    have hnewer := hcatalogs newer List.mem_cons_self
    obtain ⟨hfailed, hsettled⟩ := run_settled h hc hnewer
    obtain ⟨hall, hlast⟩ := ih hsettled hnewer fun n hn => hcatalogs n (List.mem_cons_of_mem newer hn)
    refine ⟨fun t ht => ?_, ?_⟩
    · rcases List.mem_cons.1 ht with rfl | ht
      · exact hfailed
      · exact hall t ht
    · rw [List.getLast?_cons]
      exact hlast

/-- Nothing stands below `root`. -/
def Vacant (root : Path) (f : Facility) : Prop :=
  ∀ route, root.route <+: route → route ≠ root.route → f.placeholders.get? route = none

theorem settled_of_vacant (hready : b.facility.Ready root) (hvacant : Vacant root b.facility) :
    Settled root D .empty b.facility where
  ready := hready
  kind {path p} hp := by
    rw [hvacant _ (Entry.isPrefix_place root path) (Entry.place_ne_root root path)] at hp
    cases hp
  shown e he := by cases he

/-- Every run succeeds at every entry, and the entries of the last catalog are all shown. -/
theorem placeholders_follow_catalogs {contents : List (List Entry)} (hready : b.facility.Ready root)
    (hvacant : Vacant root b.facility) (hfiles : ∀ l ∈ contents, ∀ e ∈ l, e.Storable)
    (hkinds : Catalog.KindsAgree (contents.map .ofList)) :
    (∀ t ∈ (follow root .empty (contents.map .ofList) b).1, t.failed = 0) ∧
      ∀ c : Catalog, (contents.map .ofList).getLast? = some c → ∀ e ∈ c.toList,
        (follow root .empty (contents.map .ofList) b).2.facility.Shown root e := by
  have hregular : ∀ c ∈ contents.map Catalog.ofList, c.Regular (Catalog.InnerPath (contents.map .ofList)) := by
    intro c hc
    obtain ⟨l, hl, rfl⟩ := List.mem_map.1 hc
    exact Catalog.regular_ofList (hfiles l hl) hc hkinds
  obtain ⟨hfailed, hsettled⟩ := follow_settled (settled_of_vacant hready hvacant) (Catalog.regular_empty _) hregular
  refine ⟨hfailed, fun c hc e he => hsettled.shown e ?_⟩
  rw [hc]
  exact he

/-- A file that comes, goes, and comes back with other contents beside a new one. -/
def comesBack : List (List Entry) :=
  [[⟨"docs/a.txt", "v1", 2, 1, false⟩], [], [⟨"docs/a.txt", "v2", 3, 5, false⟩, ⟨"b.txt", "b", 0, 0, false⟩]]

/-- One registered root. -/
def oneRoot : Bridge Facility :=
  .ofFacility (Facility.register ⟨"/s"⟩ (.new "name" "1") .empty).2

theorem ready_oneRoot : oneRoot.facility.Ready ⟨"/s"⟩ := by
  refine ⟨⟨⟨_, List.mem_singleton_self _, by decide +kernel⟩, fun r hr _ => ?_⟩, fun op => by cases op <;> rfl⟩
  rw [List.mem_singleton.1 hr]
  decide +kernel

theorem vacant_oneRoot : Vacant ⟨"/s"⟩ oneRoot.facility := fun _ _ _ => rfl

theorem placeholders_follow_comesBack :
    (∀ t ∈ (follow ⟨"/s"⟩ .empty (comesBack.map .ofList) oneRoot).1, t.failed = 0) ∧
      (follow ⟨"/s"⟩ .empty (comesBack.map .ofList) oneRoot).2.facility.Shown ⟨"/s"⟩ ⟨"docs/a.txt", "v2", 3, 5, false⟩ := by
  have hfiles : ∀ l ∈ comesBack, ∀ e ∈ l, e.Storable := by decide +kernel
  have h := placeholders_follow_catalogs ready_oneRoot vacant_oneRoot hfiles (by decide +kernel)
  have hlast : (comesBack.map Catalog.ofList).getLast? =
      some (.ofList [⟨"docs/a.txt", "v2", 3, 5, false⟩, ⟨"b.txt", "b", 0, 0, false⟩]) := rfl
  exact ⟨h.1, h.2 _ hlast _ (by decide +kernel)⟩

end Reconcile

end OnDemand
