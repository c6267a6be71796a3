import OnDemand.Bridge.Placeholder
import OnDemand.Proofs.Catalog.Segments
import OnDemand.Proofs.Facility.Isolation

/-!
# The forest below the roots

Every placeholder lies below a registered root, in the root itself or in a directory. No call turns a directory into a
file or a file into a directory. As long as no root lies below another one, no directory is ever given content.
-/

namespace OnDemand.Facility

variable {f g : Facility} {m : Move} {ρ σ : Route} {p q : Placeholder}

/-- What is created has a name that can be one, and an update says nothing about the attributes. -/
def Move.isManaged : Move → Bool
  | .create _ new => Bridge.isValidName new.name
  | .update _ metadata _ => metadata.attributes = 0
  | _ => true

/-- Whether there is a directory at `ρ`, if there is a placeholder. -/
def kindAt (f : Facility) (ρ : Route) : Option Bool := (f.placeholders.get? ρ).map Placeholder.isDirectory

/-- No registered root lies below another one. -/
def Flat (f : Facility) : Prop := ∀ σ ∈ f.registrations.keys, ∀ τ ∈ f.registrations.keys, σ <+: τ → σ = τ

instance (f : Facility) : Decidable f.Flat :=
  inferInstanceAs (Decidable (∀ σ ∈ f.registrations.keys, ∀ τ ∈ f.registrations.keys, σ <+: τ → σ = τ))

/-! ## What one move does to the namespace -/

theorem kindAt_of_get? (h : f.placeholders.get? ρ = some p) : f.kindAt ρ = some p.isDirectory := by
  rw [kindAt, h, Option.map_some]

theorem ne_of_kindAt {b : Bool} (h : f.kindAt ρ = some b) (hnone : f.kindAt σ = none) : ρ ≠ σ := by
  rintro rfl
  rw [h] at hnone
  cases hnone

theorem isDirectory_update {metadata : Metadata} {identity : FileIdentity} (h : metadata.attributes = 0) :
    (p.update metadata identity).isDirectory = p.isDirectory := by
  simp [Placeholder.isDirectory, Placeholder.update, Metadata.isDirectory, Metadata.amend, h]

/-- Only creating and unregistering change what is a directory or a file. -/
theorem kindAt_next (hm : m.isManaged = true) (hcreate : ∀ parent new, m ≠ .create parent new)
    (hunregister : ∀ root, m ≠ .unregister root) (ρ : Route) : (f.next m).kindAt ρ = f.kindAt ρ := by
  cases (next_spec f m).placeholderChange ρ with
  | kept h => rw [kindAt, h, kindAt]
  | removed root he => exact absurd he (hunregister root)
  | created parent new he => exact absurd he (hcreate parent new)
  | updated path metadata identity he hρ hp h =>
    subst he
    rw [kindAt_of_get? h, kindAt_of_get? hp, isDirectory_update (of_decide_eq_true hm)]
  | evicted path he hp h hρ =>
    rw [kindAt_of_get? h, kindAt_of_get? hp]
    rfl
  | marked path inUse he hp h =>
    rw [kindAt_of_get? h, kindAt_of_get? hp]
    rfl
  | filled path data he hρ hput hp h =>
    rw [kindAt_of_get? h, kindAt_of_get? hp]
    rfl
  | committed op he ht hd hc hg hs hρ hp h =>
    rw [kindAt_of_get? h, kindAt_of_get? hp]
    rfl

/-- What the move `m` from `f` to `g` makes of the registered roots and of the kinds below them. -/
inductive NamespaceChange (f : Facility) (m : Move) (g : Facility) : Prop where
  | kept (hk : ∀ ρ, g.kindAt ρ = f.kindAt ρ)
      (hr : ∀ σ, f.registrations.contains σ = true → g.registrations.contains σ = true)
  | created (parent : Path) (new : NewPlaceholder) (root : RegisteredRoot) (hm : m = .create parent new)
      (hroot : f.coveringRoot? parent = some root) (hparent : f.holdsChildren root parent = true)
      (hnone : f.kindAt (parent.join new.name).route = none)
      (hk : ∀ ρ, g.kindAt ρ =
        if ρ = (parent.join new.name).route then some new.metadata.isDirectory else f.kindAt ρ)
      (hr : g.registrations = f.registrations)
  | removed (root : Path) (hm : m = .unregister root) (hregistered : (f.registration? root).isSome = true)
      (hfree : f.isConnected root = false)
      (hk : ∀ ρ, g.kindAt ρ = if root.route <+: ρ then none else f.kindAt ρ)
      (hr : g.registrations = f.registrations.erase root.route)

theorem namespaceChange_attempt {α : Type} {op : Operation} {body : Facility → Except Status (α × Facility)}
    (h : ∀ a g, attempt op body f = (.ok a, g) → NamespaceChange f m g) : NamespaceChange f m (attempt op body f).2 := by
  rcases attempt_cases op body f with ⟨s, he⟩ | ⟨a, g, -, -, he⟩
  · rw [he]
    exact .kept (fun _ => rfl) fun _ => id
  · rw [he]
    exact h a g he

theorem namespaceChange_next (f : Facility) (hm : m.isManaged = true) : NamespaceChange f m (f.next m) := by
  -- Any other move leaves kinds alone, and no root goes.
  have hother (hcreate : ∀ parent new, m ≠ .create parent new) (hunregister : ∀ root, m ≠ .unregister root) :
      NamespaceChange f m (f.next m) := by
    refine .kept (kindAt_next hm hcreate hunregister) fun σ hσ => ?_
    cases (frame_next f m).roots with
    | unregistered root he => exact absurd he (hunregister root)
    | registered root registration he hr hc hl =>
      rw [hr, Table.contains, Table.get?_insert]
      split
      · rfl
      · exact hσ
    | kept hr | connected _ _ _ _ _ hr | disconnected _ _ hr => rwa [hr]
  cases m with
  | create parent new =>
    refine namespaceChange_attempt fun a g h => ?_
    obtain ⟨-, ⟨root, hroot, hparent⟩, -, hnone, rfl⟩ := create_ok.1 h
    refine .created parent new root rfl hroot hparent ?_ (fun ρ => ?_) rfl
    · rw [kindAt, show f.placeholders.get? (parent.join new.name).route = none from hnone, Option.map_none]
    · split
      · rename_i hρ
        rw [hρ]
        exact congrArg (Option.map _) Table.get?_insert_self
      · rename_i hρ
        rw [kindAt, Table.get?_insert_of_ne hρ, kindAt]
  | unregister root =>
    refine namespaceChange_attempt fun a g h => ?_
    obtain ⟨-, hregistered, hfree, rfl⟩ := unregister_ok.1 h
    refine .removed root rfl hregistered hfree (fun ρ => ?_) rfl
    rw [kindAt, Table.get?_filter, kindAt]
    split
    · rename_i hρ
      rw [List.isPrefixOf_iff_prefix.2 hρ]
      cases f.placeholders.get? ρ <;> rfl
    · rename_i hρ
      rw [Bool.eq_false_iff.2 fun he => hρ (List.isPrefixOf_iff_prefix.1 he)]
      cases f.placeholders.get? ρ <;> rfl
  | _ => exact hother (fun _ _ h => by cases h) fun _ h => by cases h

/-- What exists before and after a move is a directory both times, or a file both times. -/
theorem NamespaceChange.kind (h : NamespaceChange f m g) (hp : f.placeholders.get? ρ = some p)
    (hq : g.placeholders.get? ρ = some q) : q.isDirectory = p.isDirectory := by
  have hf := kindAt_of_get? hp
  have hg := kindAt_of_get? hq
  cases h with
  | kept hk hr =>
    rw [hk ρ, hf] at hg
    exact (Option.some.inj hg).symm
  | created parent new root hm hroot hparent hnone hk hr =>
    rw [hk ρ] at hg
    split at hg
    · rename_i hρ
      rw [hρ, hnone] at hf
      cases hf
    · rw [hf] at hg
      exact (Option.some.inj hg).symm
  | removed root hm hregistered hfree hk hr =>
    rw [hk ρ] at hg
    split at hg
    · cases hg
    · rw [hf] at hg
      exact (Option.some.inj hg).symm

/-! ## Roots and parents -/

/-- Roots are registered under their own routes; every placeholder lies below a root, and in one or in a directory. -/
structure Forest (f : Facility) : Prop where
  written : ∀ {σ r}, f.registrations.get? σ = some r → r.path.route = σ
  below : ∀ {ρ}, f.kindAt ρ ≠ none → ∃ σ, f.registrations.contains σ = true ∧ σ <+: ρ ∧ σ ≠ ρ
  parent : ∀ {ρ}, f.kindAt ρ ≠ none → f.registrations.contains ρ.dropLast = true ∨ f.kindAt ρ.dropLast = some true

theorem written_next (h : ∀ {σ r}, f.registrations.get? σ = some r → r.path.route = σ) (hr : RootChange f m g)
    {r : RegisteredRoot} (hget : g.registrations.get? σ = some r) : r.path.route = σ := by
  cases hr with
  | registered root registration hm hr hc hl =>
    rw [hr] at hget
    rcases Table.get?_insert_cases hget with ⟨rfl, rfl⟩ | ⟨-, hget⟩
    · cases hold : f.registration? root with
      | none => rfl
      | some old => exact h (r := old) hold
    · exact h hget
  | unregistered root hm hfree hr hc hl =>
    rw [hr] at hget
    exact h (Table.get?_erase_eq_some.1 hget).2
  | kept hr | connected _ _ _ _ _ hr | disconnected _ _ hr =>
    rw [hr] at hget
    exact h hget

theorem coveringRoot?_eq_some {path : Path} {r : RegisteredRoot} (h : f.coveringRoot? path = some r) :
    (∃ σ, f.registrations.get? σ = some r) ∧ r.path.route <+: path.route := by
  unfold coveringRoot? at h
  have hcovers := List.find?_some h
  exact ⟨Table.mem_values.1 (List.mem_of_find?_eq_some h), Path.startsWith_iff.1 hcovers⟩

/-- A new placeholder lies in the root that covers its parent, or in a directory below it. -/
theorem Forest.place_new {parent : Path} {r : RegisteredRoot} (h : Forest f) (hroot : f.coveringRoot? parent = some r)
    (hparent : f.holdsChildren r parent = true) :
    (∃ σ, f.registrations.contains σ = true ∧ σ <+: parent.route) ∧
      (f.registrations.contains parent.route = true ∨ f.kindAt parent.route = some true) := by
  obtain ⟨⟨σ, hσ⟩, hcovers⟩ := coveringRoot?_eq_some hroot
  have hroute := h.written hσ
  refine ⟨⟨σ, Table.contains_iff.2 ⟨r, hσ⟩, hroute ▸ hcovers⟩, ?_⟩
  rcases Bool.or_eq_true_iff.1 hparent with hsame | hdirectory
  · rw [← Path.same_iff.1 hsame, hroute]
    exact .inl (Table.contains_iff.2 ⟨r, hσ⟩)
  · obtain ⟨p, hp, hd⟩ := (Option.any_eq_true _ _).1 hdirectory
    rw [kindAt_of_get? hp, hd]
    exact .inr rfl

theorem Forest.next (h : Forest f) (hm : m.isManaged = true) : Forest (f.next m) := by
  have hwritten : ∀ {σ r}, (f.next m).registrations.get? σ = some r → r.path.route = σ :=
    written_next h.written (frame_next f m).roots
  cases namespaceChange_next f hm with
  | kept hk hr =>
    refine ⟨hwritten, fun {ρ} hρ => ?_, fun {ρ} hρ => ?_⟩
    · rw [hk] at hρ
      obtain ⟨σ, hσ, hbelow⟩ := h.below hρ
      exact ⟨σ, hr σ hσ, hbelow⟩
    · rw [hk] at hρ ⊢
      exact (h.parent hρ).imp_left (hr _)
  | created parent new root he hroot hparent hnone hk hr =>
    subst he
    have hroute := Path.route_join_valid (p := parent) hm
    obtain ⟨⟨σ, hσ, hcovers⟩, hin⟩ := h.place_new hroot hparent
    refine ⟨hwritten, fun {ρ} hρ => ?_, fun {ρ} hρ => ?_⟩
    · rw [hr]
      rw [hk] at hρ
      split at hρ
      · rename_i hnew
        rw [hnew, hroute]
        refine ⟨σ, hσ, hcovers.trans (List.prefix_append _ _), fun he => ?_⟩
        have hlength := hcovers.length_le
        rw [he, List.length_append, List.length_singleton] at hlength
        omega
      · exact h.below hρ
    · rw [hr]
      -- The parent of what there was is not the new placeholder, which was not there.
      have hkept : f.kindAt ρ.dropLast = some true → (f.next (.create parent new)).kindAt ρ.dropLast = some true := by
        intro hd
        rw [hk, if_neg (ne_of_kindAt hd hnone), hd]
      rw [hk] at hρ
      split at hρ
      · rename_i hnew
        have hlast : ρ.dropLast = parent.route := by rw [hnew, hroute, List.dropLast_concat]
        exact hlast ▸ hin.imp_right fun hd => hlast ▸ hkept (hlast ▸ hd)
      · exact (h.parent hρ).imp_right hkept
  | removed root he hregistered hfree hk hr =>
    refine ⟨hwritten, fun {ρ} hρ => ?_, fun {ρ} hρ => ?_⟩
    · rw [hk] at hρ
      split at hρ
      · exact absurd rfl hρ
      · rename_i hkept
        obtain ⟨σ, hσ, hbelow, hne⟩ := h.below hρ
        obtain ⟨r, hget⟩ := Table.contains_iff.1 hσ
        have hother : σ ≠ root.route := fun hroot => hkept (hroot ▸ hbelow)
        exact ⟨σ, hr ▸ Table.contains_iff.2 ⟨r, Table.get?_erase_eq_some.2 ⟨hother, hget⟩⟩, hbelow, hne⟩
    · rw [hk] at hρ
      split at hρ
      · exact absurd rfl hρ
      · rename_i hkept
        have habove : ¬root.route <+: ρ.dropLast := fun hin => hkept (hin.trans ρ.dropLast_prefix)
        rw [hk, if_neg habove, hr]
        refine (h.parent hρ).imp_left fun hσ => ?_
        obtain ⟨r, hget⟩ := Table.contains_iff.1 hσ
        exact Table.contains_iff.2 ⟨r, Table.get?_erase_eq_some.2 ⟨fun he => habove (he ▸ List.prefix_refl _), hget⟩⟩

/-! ## Directories hold no content -/

/-- Directories hold no content, and a transfer that can still be answered is for a file that is there. -/
structure Hollow (f : Facility) : Prop where
  bare : ∀ {ρ p}, f.placeholders.get? ρ = some p → p.isDirectory = true → p.content = none
  fetched : ∀ {k t}, f.transfers.get? k = some t → t.isPending = true → f.connections.contains t.connection = true →
    f.kindAt t.path.route = some false

/-- A transfer that is pending was pending before the move, or is opened in it for a file. -/
theorem Next.pending {k : TransferKey} {u : Transfer} (h : Next f m g) (hu : g.transfers.get? k = some u)
    (hpending : u.isPending = true) :
    (∃ t, f.transfers.get? k = some t ∧ t.isPending = true ∧ u.connection = t.connection ∧ u.path = t.path) ∨
      (f.kindAt u.path.route = some false ∧ g.placeholders = f.placeholders) := by
  cases h with
  | disconnected key hm hopen =>
    have hget : (f.transfers.mapValues fun _ t => closed key t).get? k = (f.transfers.get? k).map (closed key) :=
      Table.get?_mapValues ..
    obtain ⟨t, ht, rfl⟩ := Option.map_eq_some_iff.1 (hget ▸ hu)
    unfold closed at hpending ⊢
    split at hpending
    · cases hpending
    · rename_i hkept
      rw [if_neg hkept]
      exact .inl ⟨t, ht, hpending, rfl, rfl⟩
  | opened path hm hp hd hc =>
    rcases Table.get?_insert_cases hu with ⟨-, rfl⟩ | ⟨-, hu⟩
    · exact .inr ⟨(kindAt_of_get? hp).trans (congrArg some hd), rfl⟩
    · exact .inl ⟨u, hu, hpending, rfl, rfl⟩
  | gaveUp reader hm ht hp => exact .inl ⟨u, (Table.get?_erase_eq_some.1 hu).2, hpending, rfl, rfl⟩
  | failed op hm ht hs =>
    rcases Table.get?_insert_cases hu with ⟨-, rfl⟩ | ⟨-, hu⟩
    · cases hpending
    · exact .inl ⟨u, hu, hpending, rfl, rfl⟩
  | @received t data op hm ht hd hs =>
    simp only [logged, store_transfers] at hu
    rcases Table.get?_insert_cases hu with ⟨rfl, rfl⟩ | ⟨-, hu⟩
    · refine .inl ⟨t, ht.transfer, ht.pending, ?_⟩
      split <;> exact ⟨rfl, rfl⟩
    · exact .inl ⟨u, hu, hpending, rfl, rfl⟩
  | _ => exact .inl ⟨u, hu, hpending, rfl, rfl⟩

theorem Flat.eq (h : Flat f) (hσ : f.registrations.contains σ = true) {τ : Route}
    (hτ : f.registrations.contains τ = true) (hleads : σ <+: τ ∨ τ <+: σ) : σ = τ := by
  have hσ := Table.mem_keys.2 hσ
  have hτ := Table.mem_keys.2 hτ
  exact hleads.elim (h σ hσ τ hτ) fun hp => (h τ hτ σ hσ hp).symm

/-- What is fetched on an open connection is not below a root that can be unregistered. -/
theorem not_below_unregistered {k : TransferKey} {t : Transfer} {root : Path} (hflat : Flat f) (ha : Anchored f)
    (hrooted : Rooted f) (ht : f.transfers.get? k = some t) (hopen : f.connections.contains t.connection = true)
    (hregistered : (f.registration? root).isSome = true) (hfree : f.isConnected root = false) :
    ¬root.route <+: t.path.route := by
  intro hbelow
  obtain ⟨c, hc⟩ := Table.contains_iff.1 hopen
  have hnested := List.prefix_or_prefix_of_prefix (hrooted.below ht hc) hbelow
  exact route_ne_of_not_isConnected hfree hc (hflat.eq (ha.registered hc) hregistered hnested)

theorem Hollow.fetched_next {k : TransferKey} {u : Transfer} (h : Hollow f) (hflat : Flat f) (ha : Anchored f)
    (hrooted : Rooted f) (hm : m.isManaged = true) (hu : (f.next m).transfers.get? k = some u)
    (hpending : u.isPending = true) (hopen : (f.next m).connections.contains u.connection = true) :
    (f.next m).kindAt u.path.route = some false := by
  rcases (next_spec f m).pending hu hpending with ⟨t, ht, hpending, hconnection, hpath⟩ | ⟨hkind, hsame⟩
  · rw [hconnection] at hopen
    rw [hpath]
    have hopen : f.connections.contains t.connection = true := by
      obtain ⟨c, hc⟩ := Table.contains_iff.1 hopen
      rcases (frame_next f m).roots.origin hc with hc | hnew
      · exact Table.contains_iff.2 ⟨c, hc⟩
      · exact absurd hnew (ConnectionKey.ne_next (hrooted.issued ht))
    have hkind := h.fetched ht hpending hopen
    cases namespaceChange_next f hm with
    | kept hk hr => rw [hk, hkind]
    | created parent new root he hroot hparent hnone hk hr =>
      rw [hk, if_neg (ne_of_kindAt hkind hnone), hkind]
    | removed root he hregistered hfree hk hr =>
      rw [hk, if_neg (not_below_unregistered hflat ha hrooted ht hopen hregistered hfree), hkind]
  · rw [kindAt, hsame, ← kindAt, hkind]

theorem Hollow.bare_next (h : Hollow f) (hm : m.isManaged = true) (hp : (f.next m).placeholders.get? ρ = some p)
    (hdirectory : p.isDirectory = true) : p.content = none := by
  cases (next_spec f m).placeholderChange ρ with
  | kept hget => exact h.bare (hget ▸ hp) hdirectory
  | removed root he hget hρ =>
    rw [hget] at hp
    cases hp
  | created parent new he hρ hf hget =>
    rw [hget] at hp
    obtain rfl := Option.some.inj hp
    rfl
  | updated path metadata identity he hρ hold hget =>
    subst he
    rw [hget] at hp
    obtain rfl := Option.some.inj hp
    rw [isDirectory_update (of_decide_eq_true hm)] at hdirectory
    exact (h.bare hold hdirectory :)
  | evicted path he hold hget hρ =>
    rw [hget] at hp
    obtain rfl := Option.some.inj hp
    rfl
  | marked path inUse he hold hget =>
    rw [hget] at hp
    obtain rfl := Option.some.inj hp
    exact (h.bare hold hdirectory :)
  | @filled old path data he hρ hput hold hget =>
    rw [hget] at hp
    obtain rfl := Option.some.inj hp
    obtain ⟨there, hthere, hfile, -⟩ := putContent_ok.1 hput
    subst hρ
    obtain rfl := Option.some.inj (hthere.symm.trans hold)
    exact absurd hdirectory (Bool.eq_false_iff.1 hfile)
  | @committed old t data op he ht hd hc hg hs hρ hold hget =>
    -- The transfer was for a file.
    rw [hget] at hp
    obtain rfl := Option.some.inj hp
    have hfile := h.fetched ht.transfer ht.pending (ht.connection ▸ ht.isOpen)
    rw [hρ, kindAt_of_get? hold] at hfile
    exact absurd hdirectory (Bool.eq_false_iff.1 (Option.some.inj hfile))

theorem Hollow.next (h : Hollow f) (hflat : Flat f) (ha : Anchored f) (hrooted : Rooted f) (hm : m.isManaged = true) :
    Hollow (f.next m) :=
  ⟨h.bare_next hm, h.fetched_next hflat ha hrooted hm⟩

end OnDemand.Facility
