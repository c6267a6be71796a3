import OnDemand.Proofs.Bridge.InMemory
import OnDemand.Proofs.Facility.Roots

/-!
# The live table mirrors the facility

Two tables know the connections of a bridge: the facility's own, and the live table. Each is changed by its own call,
and calls can be refused. What the live table has as open is open at the facility, with the same root; the two are equal
as long as no disconnection is refused.
-/

namespace OnDemand

/-- The move opens or closes connections. -/
@[simp] def Facility.Move.links : Move → Bool
  | .connect _ _ | .disconnect _ => true
  | _ => false

theorem Facility.RootChange.connections {f g : Facility} {m : Move} (h : RootChange f m g) (hm : m.links = false) :
    g.connections = f.connections := by
  cases h with
  | connected root handler he | disconnected key he =>
    subst he
    cases hm
  | kept hr hc hl => exact hc
  | registered root registration he hr hc hl => exact hc
  | unregistered root he hfree hr hc hl => exact hc

namespace Usage

variable {u v : Usage Facility} {m : Move Facility.Move} {ms : List (Move Facility.Move)} {key : ConnectionKey}

/-! ## What one move does to both tables -/

/-- No connection is opened or closed but through the bridge. -/
def Sole (ms : List (Move Facility.Move)) : Prop := ∀ fm, .elsewhere fm ∈ ms → fm.links = false

/-- What a move from `u` to `v` makes of the live table and of the connections of the facility. -/
inductive TableChange (u v : Usage Facility) : Prop where
  | kept (hlive : v.bridge.live = u.bridge.live) (hc : v.bridge.facility.connections = u.bridge.facility.connections)
  | opened (root : Path) (handler : Handler)
      (hlive : v.bridge.live = u.bridge.live.record ⟨u.bridge.facility.lastConnection + 1⟩ root)
      (hc : v.bridge.facility.connections =
        u.bridge.facility.connections.insert ⟨u.bridge.facility.lastConnection + 1⟩ ⟨root, handler⟩)
  | closed (key : ConnectionKey) (hlive : v.bridge.live = u.bridge.live.retire key)
      (hc : v.bridge.facility.connections = u.bridge.facility.connections.erase key)
  /-- The live table forgets the connection although the facility does not let go of it. -/
  | refused (key : ConnectionKey) (hlive : v.bridge.live = u.bridge.live.retire key)
      (hc : v.bridge.facility.connections = u.bridge.facility.connections)
      (hwhy : u.bridge.facility.faults .disconnect ≠ none ∨ u.bridge.facility.connections.get? key = none)

theorem tableChange_connect (u : Usage Facility) (root : Path) (handler : Handler) :
    TableChange u (u.next react (.connect root handler)) := by
  cases hcall : Facility.connect root handler u.bridge.facility with
  | mk answer g =>
    cases answer with
    | error s =>
      obtain rfl := Facility.attempt_error hcall
      refine .kept ?_ ?_ <;> simp [next, Bridge.connect, accept_eq hcall, Except.mapError, Facility.dropFault]
    | ok key =>
      obtain ⟨-, -, -, rfl, rfl⟩ := Facility.connect_ok.1 hcall
      refine .opened root handler ?_ ?_ <;>
        simp [next, Bridge.connect, accept_eq hcall, Except.mapError, Bridge.record]

theorem tableChange_close (u : Usage Facility) (place : Nat) :
    TableChange u (u.next react (.close place : Move Facility.Move)) := by
  cases hheld : u.held[place]? with
  | none => exact .kept (by simp [next, hheld]) (by simp [next, hheld])
  | some c =>
    cases hcall : Facility.disconnect c.key u.bridge.facility with
    | mk answer g =>
      have hdisconnect : (u.next react (.close place : Move Facility.Move)).bridge = ⟨g, u.bridge.live.retire c.key⟩ := by
        have hg : CloudFacility.disconnectRoot c.key u.bridge.facility = (answer, g) := hcall
        simp [next, hheld, Bridge.disconnect, Bridge.ask, hg]
      cases answer with
      | ok _ =>
        obtain ⟨-, -, rfl⟩ := Facility.disconnect_ok.1 hcall
        exact .closed c.key (congrArg (·.live) hdisconnect) (congrArg (·.facility.connections) hdisconnect)
      | error s =>
        obtain rfl := Facility.attempt_error hcall
        refine .refused c.key (congrArg (·.live) hdisconnect) (congrArg (·.facility.connections) hdisconnect) ?_
        by_contra hnone
        obtain ⟨hclear, hsome⟩ := not_or.1 hnone
        have hok := Facility.disconnect_ok.2
          ⟨not_not.1 hclear, Option.isSome_iff_ne_none.2 hsome, rfl⟩
        cases (Prod.mk.inj (hcall.symm.trans hok)).1

theorem tableChange (u : Usage Facility) (m : Move Facility.Move) (hm : ∀ fm, m = .elsewhere fm → fm.links = false) :
    TableChange u (u.next react m) := by
  -- A move that makes no connecting and no disconnecting move of the facility leaves both tables alone.
  have hkept (hlinks : ∀ fm, u.Makes m fm → fm.links = false) (ho : u.opens? m = none) (hc : u.closes? m = none) :
      TableChange u (u.next react m) := by
    have hlive : (u.next react m).bridge.live = u.bridge.live := by
      cases linkage react u m with
      | kept _ _ hlive _ => exact hlive
      | opened c ho' _ _ _ => simp [ho] at ho'
      | closed c _ hc' _ _ _ => simp [hc] at hc'
    rcases facility_next u m with hsame | ⟨fm, hmakes, hfm⟩
    · exact .kept hlive (by rw [hsame])
    · exact .kept hlive (by rw [hfm]; exact (Facility.frame_next _ fm).roots.connections (hlinks fm hmakes))
  cases m with
  | connect root handler => exact tableChange_connect u root handler
  | close place => exact tableChange_close u place
  | elsewhere fm =>
    refine hkept (fun fm' hmakes => ?_) rfl rfl
    obtain rfl : fm' = fm := hmakes
    exact hm fm' rfl
  | _ => exact hkept (fun fm hmakes => by cases hmakes; rfl) rfl rfl

/-! ## What a run keeps -/

/-- What the live table has as open is a connection of the facility, with the same root. -/
def Mirrored (u : Usage Facility) : Prop :=
  ∀ key root, u.bridge.live.root? key = some root →
    ∃ c, u.bridge.facility.connections.get? key = some c ∧ c.root = root

/-- The connections of the facility are open in the live table, with the same roots, and no others are. -/
def Exact (u : Usage Facility) : Prop :=
  ∀ key, u.bridge.live.root? key = (u.bridge.facility.connections.get? key).map Connection.root

theorem Mirrored.next (h : Mirrored u) (hchange : TableChange u v) : Mirrored v := by
  intro key root hroot
  cases hchange with
  | kept hlive hc => exact hc ▸ h key root (hlive ▸ hroot)
  | opened root' handler hlive hc =>
    rw [hlive, LiveTable.root?_record] at hroot
    rw [hc]
    split at hroot
    · rename_i hkey
      exact ⟨⟨root', handler⟩, hkey ▸ Table.get?_insert_self, Option.some.inj hroot⟩
    · rename_i hkey
      rw [Table.get?_insert_of_ne hkey]
      exact h key root hroot
  | closed key' hlive hc | refused key' hlive hc =>
    rw [hlive, LiveTable.root?_retire] at hroot
    split at hroot
    · cases hroot
    · rename_i hkey
      simpa only [hc, Table.get?_erase_of_ne hkey] using h key root hroot

theorem Exact.next (h : Exact u) (hclear : u.bridge.facility.faults .disconnect = none) (hchange : TableChange u v) :
    Exact v := by
  intro key
  cases hchange with
  | kept hlive hc => rw [hlive, hc, h key]
  | opened root handler hlive hc =>
    rw [hlive, hc, LiveTable.root?_record]
    split
    · rename_i hkey
      rw [hkey, Table.get?_insert_self, Option.map_some]
    · rename_i hkey
      rw [Table.get?_insert_of_ne hkey, h key]
  | closed key' hlive hc =>
    rw [hlive, hc, LiveTable.root?_retire]
    split
    · rename_i hkey
      rw [hkey, Table.get?_erase_self, Option.map_none]
    · rename_i hkey
      rw [Table.get?_erase_of_ne hkey, h key]
  | refused key' hlive hc hwhy =>
    -- No refusal was planned, so the facility did not know the connection.
    have hnone : u.bridge.facility.connections.get? key' = none := hwhy.resolve_left (not_not.2 hclear)
    rw [hlive, hc, LiveTable.root?_retire]
    split
    · rename_i hkey
      rw [hkey, hnone, Option.map_none]
    · exact h key

theorem Sole.next (hsole : Sole (ms ++ [m])) : TableChange (run ms) (run (ms ++ [m])) := by
  rw [run_append_singleton]
  refine tableChange (run ms) m fun fm hm => hsole fm ?_
  rw [hm]
  exact List.mem_append_right _ List.mem_cons_self

theorem Sole.init (hsole : Sole (ms ++ [m])) : Sole ms := fun fm hfm => hsole fm (List.mem_append_left _ hfm)

theorem mirrored_run (hsole : Sole ms) : Mirrored (run ms) := by
  induction ms using List.reverseRecOn with
  | nil => exact nofun
  | append_singleton ms m ih => exact (ih hsole.init).next hsole.next

theorem exact_run (hsole : Sole ms) (hnever : ∀ s, .elsewhere (.planFault .disconnect s) ∉ ms) : Exact (run ms) := by
  induction ms using List.reverseRecOn with
  | nil => exact fun _ => rfl
  | append_singleton ms m ih =>
    have hnever' : ∀ s, .elsewhere (.planFault .disconnect s) ∉ ms := fun s hs => hnever s (List.mem_append_left _ hs)
    exact (ih hsole.init hnever').next (clear_of_never_planned hnever') hsole.next

/-! ## The whole -/

/-- Whatever calls are made through the one bridge of a facility, and however they come out: what the live table has as open
is open at the facility with the same root, and the two are equal unless a refusal of a disconnection was planned; a
connected root is registered and has one connection; keys only grow; and the live table has as closed the keys that were
opened and closed since, and none that it has as open. -/
theorem live_table_mirrors (ms : List (Move Facility.Move)) (hsole : Sole ms) :
    (∀ key root, (run ms).bridge.live.root? key = some root →
      ∃ c, (run ms).bridge.facility.connections.get? key = some c ∧ c.root = root) ∧
    ((∀ s, .elsewhere (.planFault .disconnect s) ∉ ms) →
      (run ms).bridge.live.opened = (run ms).bridge.facility.connections.mapValues fun _ c => c.root) ∧
    (∀ key c key' c', (run ms).bridge.facility.connections.get? key = some c →
      (run ms).bridge.facility.connections.get? key' = some c' → c.root.same c'.root = true → key = key') ∧
    (∀ key c, (run ms).bridge.facility.connections.get? key = some c →
      ((run ms).bridge.facility.registration? c.root).isSome = true) ∧
    ((start .empty).opened react ms).Pairwise (fun c d => c.key.value < d.key.value) ∧
    (∀ key, (run ms).bridge.live.isClosed key = true ↔
      (∃ c ∈ (start .empty).opened react ms, c.key = key) ∧ ClosedIn react .empty key ms) ∧
    (∀ key, ¬((run ms).bridge.live.contains key = true ∧ (run ms).bridge.live.isClosed key = true)) := by
  have hanchored : Facility.Anchored (run ms).bridge.facility := by
    obtain ⟨fms, hfms⟩ := exists_after ms
    rw [hfms]
    exact Facility.anchored_after fms
  refine ⟨mirrored_run hsole, fun hnever => ?_, fun key c key' c' hc hc' hsame => ?_, fun key c => hanchored.registered,
    opened_increasing ms, fun key => ⟨fun hclosed => ?_, fun h => (isClosed_iff ms).2 h.2⟩, fun key h => ?_⟩
  · refine Table.ext_get? fun key => ?_
    rw [Table.get?_mapValues]
    exact exact_run hsole hnever key
  · exact hanchored.single hc hc' (Path.same_iff.1 hsame)
  · exact ⟨(known_after ms).closed key hclosed, (isClosed_iff ms).1 hclosed⟩
  · obtain ⟨root, hroot⟩ := Option.isSome_iff_exists.1 h.1
    exact Bool.false_ne_true ((isClosed_of_root? hroot).symm.trans h.2)

/-- Two roots are connected, one of them after a refusal and a second time in vain, and the other one is disconnected. -/
def twoRoots : List (Move Facility.Move) :=
  [.elsewhere (.register ⟨"/r"⟩ (.new "r" "1")), .elsewhere (.register ⟨"/s"⟩ (.new "s" "1")), .connect ⟨"/r"⟩ none,
    .elsewhere (.planFault .connect .accessDenied), .connect ⟨"/s"⟩ none, .connect ⟨"/s/"⟩ none, .connect ⟨"/s"⟩ none,
    .unregister ⟨"/s"⟩, .close 0]

theorem live_table_mirrors_twoRoots :
    Sole twoRoots ∧ (∀ s, .elsewhere (.planFault .disconnect s) ∉ twoRoots) ∧
      (run twoRoots).bridge.live.opened = (run twoRoots).bridge.facility.connections.mapValues (fun _ c => c.root) ∧
      (run twoRoots).bridge.live.opened.toList = [(⟨0x1002⟩, ⟨"/s/"⟩)] := by
  have hsole : Sole twoRoots := by
    intro fm hfm
    simp only [twoRoots, List.mem_cons, List.not_mem_nil, or_false, reduceCtorEq, Move.elsewhere.injEq, false_or] at hfm
    rcases hfm with rfl | rfl | rfl <;> rfl
  have hnever : ∀ s, .elsewhere (.planFault .disconnect s) ∉ twoRoots := fun s => by simp [twoRoots]
  exact ⟨hsole, hnever, (live_table_mirrors twoRoots hsole).2.1 hnever, by decide +kernel⟩

end Usage

end OnDemand
