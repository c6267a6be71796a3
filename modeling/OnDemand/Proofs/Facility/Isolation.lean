import OnDemand.Proofs.Facility.Content
import OnDemand.Proofs.Facility.Roots

/-!
# Roots that lie apart

A transfer belongs to the connection that it was opened on, and lies below the root of that connection as long as it is
open. So calls about roots apart from one root leave everything below that one as it is, whatever keys they name.
-/

namespace OnDemand

/-- Neither path is the other one or lies below it. -/
def Path.apart (p q : Path) : Bool := !p.startsWith q && !q.startsWith p

theorem Path.apart_iff {p q : Path} : p.apart q = true ↔ ¬q.route <+: p.route ∧ ¬p.route <+: q.route := by
  simp [apart, ← startsWith_iff]

/-- No path is below both of two paths that are apart. -/
theorem Path.not_prefix_of_apart {p q : Path} {ρ : Route} (h : p.apart q = true) (hp : p.route <+: ρ) : ¬q.route <+: ρ :=
  fun hq => (List.prefix_or_prefix_of_prefix hp hq).elim (apart_iff.1 h).2 (apart_iff.1 h).1

theorem Path.route_ne_of_apart {p q : Path} (h : p.apart q = true) : p.route ≠ q.route := fun he =>
  (apart_iff.1 h).2 (he ▸ List.prefix_refl _)

namespace Facility

variable {f g : Facility} {m : Move} {root : Path} {k : TransferKey} {key : ConnectionKey} {c : Connection}
  {t u : Transfer}

/-! ## Transfers and their connections -/

/-- A transfer is for a connection whose key was issued, and below the root of that connection if it is open. -/
structure Rooted (f : Facility) : Prop where
  issued : ∀ {k t}, f.transfers.get? k = some t → t.connection.value ≤ f.lastConnection
  below : ∀ {k t c}, f.transfers.get? k = some t → f.connections.get? t.connection = some c → c.root.route <+: t.path.route

theorem coveringConnection?_eq_some {path : Path} {e : ConnectionKey × Connection} (h : f.coveringConnection? path = some e) :
    f.connections.get? e.1 = some e.2 ∧ e.2.root.route <+: path.route := by
  obtain ⟨hmem, hcovers⟩ := List.mem_filter.1 (mem_of_choose? h)
  exact ⟨Table.mem_toList.1 hmem, Path.startsWith_iff.1 hcovers⟩

/-- Every connection that covers a path may be the one that is found for it. -/
theorem exists_coveringConnection? {path : Path} (hc : f.connections.get? key = some c)
    (hroot : c.root.route <+: path.route) : ∃ pick, (f.rearrange pick).coveringConnection? path = some (key, c) :=
  exists_choose? (List.mem_filter.2 ⟨Table.mem_toList.2 hc, Path.startsWith_iff.2 hroot⟩) f

/-- A transfer had its connection and its path before the move already, or is opened in it on a connection that covers
its path. -/
theorem Next.origin (h : Next f m g) (hu : g.transfers.get? k = some u) :
    (∃ t, f.transfers.get? k = some t ∧ u.connection = t.connection ∧ u.path = t.path) ∨
      ∃ c, f.connections.get? u.connection = some c ∧ c.root.route <+: u.path.route := by
  cases h with
  | disconnected key hm hopen =>
    have hget : (f.transfers.mapValues fun _ t => closed key t).get? k = (f.transfers.get? k).map (closed key) :=
      Table.get?_mapValues ..
    obtain ⟨t, ht, rfl⟩ := Option.map_eq_some_iff.1 (hget ▸ hu)
    refine .inl ⟨t, ht, ?_⟩
    unfold closed
    split <;> exact ⟨rfl, rfl⟩
  | opened path hm hp hd hc =>
    rcases Table.get?_insert_cases hu with ⟨-, rfl⟩ | ⟨-, hu⟩
    · exact .inr ⟨_, coveringConnection?_eq_some hc⟩
    · exact .inl ⟨u, hu, rfl, rfl⟩
  | gaveUp reader hm ht hp =>
    exact .inl ⟨u, (Table.get?_erase_eq_some.1 hu).2, rfl, rfl⟩
  | @failed t op hm ht hs =>
    rcases Table.get?_insert_cases hu with ⟨rfl, rfl⟩ | ⟨-, hu⟩
    · exact .inl ⟨t, ht.transfer, rfl, rfl⟩
    · exact .inl ⟨u, hu, rfl, rfl⟩
  | @received t data op hm ht hd hs =>
    simp only [logged, store_transfers] at hu
    rcases Table.get?_insert_cases hu with ⟨rfl, rfl⟩ | ⟨-, hu⟩
    · refine .inl ⟨t, ht.transfer, ?_⟩
      split <;> exact ⟨rfl, rfl⟩
    · exact .inl ⟨u, hu, rfl, rfl⟩
  | _ => exact .inl ⟨u, hu, rfl, rfl⟩

/-- A connection was there before the move, or has the next key. -/
theorem RootChange.origin (h : RootChange f m g) (hc : g.connections.get? key = some c) :
    f.connections.get? key = some c ∨ key = ⟨f.lastConnection + 1⟩ := by
  cases h with
  | kept hr hconnections hl | registered root registration hm hr hconnections hl
  | unregistered root hm hfree hr hconnections hl => exact .inl (hconnections ▸ hc)
  | connected root handler hm hregistered hfree hr hconnections hl =>
    rw [hconnections] at hc
    exact (Table.get?_insert_cases hc).symm.imp And.right And.left
  | disconnected key' hm hr hconnections hl =>
    rw [hconnections] at hc
    exact .inl (Table.get?_erase_eq_some.1 hc).2

theorem Rooted.next (h : Rooted f) (ha : Anchored f) (hn : Next f m g) (hframe : Frame f m g) : Rooted g where
  issued hu := by
    refine Int.le_trans ?_ hframe.lastConnection
    rcases hn.origin hu with ⟨t, ht, hconnection, -⟩ | ⟨c, hc, -⟩
    · rw [hconnection]
      exact h.issued ht
    · exact ha.issued hc
  below hu hc := by
    rcases hn.origin hu with ⟨t, ht, hconnection, hpath⟩ | ⟨d, hd, hbelow⟩
    · rcases hframe.roots.origin hc with hc | hnew
      · rw [hpath]
        exact h.below ht (hconnection ▸ hc)
      · exact absurd (hconnection.symm.trans hnew) (ConnectionKey.ne_next (h.issued ht))
    · rcases hframe.roots.origin hc with hc | hnew
      · obtain rfl := Option.some.inj (hd.symm.trans hc)
        exact hbelow
      · exact absurd hnew (ConnectionKey.ne_next (ha.issued hd))

theorem rooted_after (ms : List Move) : Rooted (after ms) := by
  induction ms using List.reverseRecOn with
  | nil => exact ⟨nofun, nofun⟩
  | append_singleton ms m ih =>
    rw [after_append_singleton]
    exact ih.next (anchored_after ms) (next_spec _ m) (frame_next _ m)

/-! ## Moves that leave roots and files alone -/

/-- The move fails a transfer, or is a read or the end of one, or another order of the tables. -/
def Move.isPassing : Move → Bool
  | .execute op => !op.status.isSuccess
  | .read _ _ _ | .giveUp _ | .rearrange _ => true
  | _ => false

theorem Move.isBeside_of_isPassing (hm : m.isPassing = true) : m.isBeside = true := by
  cases m <;> first | rfl | cases hm

/-- `g` has the roots, the connections and the placeholders of `f`; what is pending in `g` was so in `f`, or is on a
connection that `f` has. -/
structure Persists (f g : Facility) : Prop where
  stands : Stands f g
  placeholders : g.placeholders = f.placeholders
  pending : ∀ {k t}, g.transfers.get? k = some t → t.phase = .pending →
    f.transfers.get? k = some t ∨ f.connections.contains t.connection = true

theorem Persists.refl (f : Facility) : Persists f f := ⟨.refl f, rfl, fun ht _ => .inl ht⟩

theorem Persists.trans {f' : Facility} (h : Persists f g) (h' : Persists g f') : Persists f f' where
  stands := h.stands.trans h'.stands
  placeholders := h'.placeholders.trans h.placeholders
  pending ht hpending := by
    rcases h'.pending ht hpending with ht | hopen
    · exact h.pending ht hpending
    · exact .inr (h.stands.connections ▸ hopen)

theorem persists_next (f : Facility) (hm : m.isPassing = true) : Persists f (f.next m) := by
  have hstands := stands_next f (Move.isBeside_of_isPassing hm)
  have hnext := next_spec f m
  generalize f.next m = g at hstands hnext
  cases hnext with
  | quiet => exact ⟨hstands, rfl, fun ht _ => .inl ht⟩
  | opened path he hp hd hc =>
    refine ⟨hstands, rfl, fun ht _ => ?_⟩
    rcases Table.get?_insert_cases ht with ⟨-, rfl⟩ | ⟨-, ht⟩
    · exact .inr (Table.contains_iff.2 ⟨_, (coveringConnection?_eq_some hc).1⟩)
    · exact .inl ht
  | gaveUp reader => exact ⟨hstands, rfl, fun ht _ => .inl (Table.get?_erase_eq_some.1 ht).2⟩
  | failed op =>
    refine ⟨hstands, rfl, fun ht hpending => ?_⟩
    rcases Table.get?_insert_cases ht with ⟨-, rfl⟩ | ⟨-, ht⟩
    · cases hpending
    · exact .inl ht
  | received op he ht hd =>
    subst he
    simp [Move.isPassing, hd.success] at hm
  | unregistered _ he | disconnected _ he | created _ _ he | updated _ _ _ he | evicted _ he | marked _ _ he
  | filled _ _ he =>
    subst he
    cases hm

/-! ## Calls that are not about a root -/

/-- The connection with this key, if it is open, is of a root apart from `root`. -/
def foreign (root : Path) (key : ConnectionKey) (f : Facility) : Bool :=
  (f.connections.get? key).all (·.root.apart root)

theorem apart_of_foreign (h : f.foreign root key = true) (hc : f.connections.get? key = some c) :
    c.root.apart root = true := by
  rwa [foreign, hc, Option.all_some] at h

/-- The move is a call about roots apart from `root`, about paths that are not below it, or on connections of other
roots; or the plan of a refusal or another order of the tables. -/
def aside (root : Path) (f : Facility) : Move → Bool
  | .register other _ | .unregister other | .connect other _ => other.apart root
  | .disconnect key => f.foreign root key
  | .create parent new => !(parent.join new.name).startsWith root
  | .update path _ _ | .dehydrate path => !path.startsWith root
  | .execute op => f.foreign root op.connection
  | .planFault _ _ | .rearrange _ => true
  | _ => false

/-- `g` has of `root` what `f` has: its registration, its connections, and the placeholders and transfers below it. -/
structure Undisturbed (root : Path) (f g : Facility) : Prop where
  registration : g.registration? root = f.registration? root
  connections : ∀ key c, c.root.route = root.route → (g.connections.get? key = some c ↔ f.connections.get? key = some c)
  placeholders : ∀ ρ, root.route <+: ρ → g.placeholders.get? ρ = f.placeholders.get? ρ
  transfers : ∀ k t, root.route <+: t.path.route → (g.transfers.get? k = some t ↔ f.transfers.get? k = some t)

theorem Undisturbed.refl (root : Path) (f : Facility) : Undisturbed root f f :=
  ⟨rfl, fun _ _ _ => .rfl, fun _ _ => rfl, fun _ _ _ => .rfl⟩

theorem Undisturbed.trans {f' : Facility} (h : Undisturbed root f g) (h' : Undisturbed root g f') :
    Undisturbed root f f' where
  registration := h'.registration.trans h.registration
  connections key c hc := (h'.connections key c hc).trans (h.connections key c hc)
  placeholders ρ hρ := (h'.placeholders ρ hρ).trans (h.placeholders ρ hρ)
  transfers k t ht := (h'.transfers k t ht).trans (h.transfers k t ht)

theorem registration?_of_aside (hr : RootChange f m g) (haside : f.aside root m = true) :
    g.registration? root = f.registration? root := by
  cases hr with
  | registered other registration hm hr hc hl =>
    subst hm
    rw [registration?, hr, Table.get?_insert_of_ne (Path.route_ne_of_apart haside).symm, registration?]
  | unregistered other hm hfree hr hc hl =>
    subst hm
    rw [registration?, hr, Table.get?_erase_of_ne (Path.route_ne_of_apart haside).symm, registration?]
  | kept hr | connected _ _ _ _ _ hr | disconnected _ _ hr => rw [registration?, hr, registration?]

theorem connections_of_aside (ha : Anchored f) (hr : RootChange f m g) (haside : f.aside root m = true)
    (hc : c.root.route = root.route) : g.connections.get? key = some c ↔ f.connections.get? key = some c := by
  cases hr with
  | kept _ hconnections | registered _ _ _ _ hconnections | unregistered _ _ _ _ hconnections => rw [hconnections]
  | connected other handler hm hregistered hfree hr hconnections hl =>
    subst hm
    rw [hconnections]
    by_cases hkey : key = ⟨f.lastConnection + 1⟩
    · subst hkey
      rw [Table.get?_insert_self]
      constructor
      · intro he
        obtain rfl := Option.some.inj he
        exact absurd hc (Path.route_ne_of_apart haside)
      · exact fun he => absurd rfl (ConnectionKey.ne_next (ha.issued he))
    · rw [Table.get?_insert_of_ne hkey]
  | disconnected key' hm hr hconnections hl =>
    subst hm
    rw [hconnections]
    by_cases hkey : key = key'
    · subst hkey
      rw [Table.get?_erase_self]
      refine ⟨nofun, fun he => ?_⟩
      exact absurd hc (Path.route_ne_of_apart (apart_of_foreign haside he))
    · rw [Table.get?_erase_of_ne hkey]

/-- A transfer on an open connection of another root does not lie below `root`. -/
theorem Rooted.not_below (h : Rooted f) (ht : f.transfers.get? k = some t) (hopen : f.connections.contains key = true)
    (hkey : t.connection = key) (hforeign : f.foreign root key = true) : ¬root.route <+: t.path.route := by
  obtain ⟨c, hc⟩ := Table.contains_iff.1 hopen
  exact Path.not_prefix_of_apart (apart_of_foreign hforeign hc) (h.below ht (hkey ▸ hc))

theorem placeholders_of_aside (h : Rooted f) (hn : Next f m g) (haside : f.aside root m = true) {ρ : Route}
    (hρ : root.route <+: ρ) : g.placeholders.get? ρ = f.placeholders.get? ρ := by
  cases hn.placeholderChange ρ with
  | kept hget => exact hget
  | removed other hm hget hprefix =>
    subst hm
    exact absurd hρ (Path.not_prefix_of_apart haside hprefix)
  | created parent new hm hplace hf hget =>
    subst hm hplace
    simp [aside, Path.startsWith_iff.2 hρ] at haside
  | updated path metadata identity hm hplace hp hget =>
    subst hm hplace
    simp [aside, Path.startsWith_iff.2 hρ] at haside
  | evicted path hm hp hget hplace =>
    subst hm hplace
    simp [aside, Path.startsWith_iff.2 hρ] at haside
  | marked path inUse hm | filled path data hm =>
    subst hm
    cases haside
  | committed op hm ht hd hc hg hs hplace hp hget =>
    subst hm
    rw [← hplace] at hρ
    exact absurd hρ (h.not_below ht.transfer ht.isOpen ht.connection haside)

theorem transfers_of_aside (h : Rooted f) (hn : Next f m g) (haside : f.aside root m = true)
    (ht : root.route <+: t.path.route) : g.transfers.get? k = some t ↔ f.transfers.get? k = some t := by
  cases hn with
  | disconnected key hm hopen =>
    subst hm
    have hget : (f.transfers.mapValues fun _ t => closed key t).get? k = (f.transfers.get? k).map (closed key) :=
      Table.get?_mapValues ..
    have hkept : ∀ u, f.transfers.get? k = some u → root.route <+: u.path.route → closed key u = u := by
      intro u hu hbelow
      refine if_neg fun hclosed => ?_
      exact h.not_below hu hopen hclosed.1 haside hbelow
    simp only [hget, Option.map_eq_some_iff]
    constructor
    · rintro ⟨u, hu, rfl⟩
      have hpath : (closed key u).path = u.path := by
        unfold closed
        split <;> rfl
      rwa [hkept u hu (hpath ▸ ht)]
    · exact fun hu => ⟨t, hu, hkept t hu ht⟩
  | opened path hm hp hd hc =>
    rcases hm with rfl | ⟨offset, length, rfl⟩ <;> cases haside
  | gaveUp reader hm =>
    subst hm
    cases haside
  | @failed u op hm hawaits hs =>
    subst hm
    have hbelow := h.not_below hawaits.transfer hawaits.isOpen hawaits.connection haside
    by_cases hk : k = op.transfer
    · subst hk
      simp only [logged, Table.get?_insert_self, hawaits.transfer, Option.some.injEq]
      constructor <;> rintro rfl <;> exact absurd ht hbelow
    · simp only [logged, Table.get?_insert_of_ne hk]
  | @received u data op hm hawaits hd hs =>
    subst hm
    have hbelow := h.not_below hawaits.transfer hawaits.isOpen hawaits.connection haside
    by_cases hk : k = op.transfer
    · subst hk
      simp only [logged, store_transfers, Table.get?_insert_self, hawaits.transfer, Option.some.injEq]
      constructor
      · rintro rfl
        split at ht <;> exact absurd ht hbelow
      · rintro rfl
        exact absurd ht hbelow
    · simp only [logged, store_transfers, Table.get?_insert_of_ne hk]
  | _ => exact .rfl

theorem undisturbed_next (ha : Anchored f) (h : Rooted f) (haside : f.aside root m = true) :
    Undisturbed root f (f.next m) where
  registration := registration?_of_aside (frame_next f m).roots haside
  connections _ _ := connections_of_aside ha (frame_next f m).roots haside
  placeholders _ := placeholders_of_aside h (next_spec f m) haside
  transfers _ _ := transfers_of_aside h (next_spec f m) haside

end Facility

end OnDemand
