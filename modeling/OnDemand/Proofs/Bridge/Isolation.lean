import OnDemand.Proofs.Bridge.InMemory
import OnDemand.Proofs.Facility.Isolation

/-!
# Roots do not disturb each other

Several roots can be served through one bridge. Whatever is done about the others, with whatever transfer keys: a root
keeps its registration and its connection, and what lies below it stays as it is.
-/

namespace OnDemand.Usage

variable {u v w : Usage Facility} {m : Move Facility.Move} {ms rest : List (Move Facility.Move)} {root : Path}

/-! ## Connections that are held -/

/-- The facility has a connection that is held, if it has it at all, with the same root. -/
def Rightful (u : Usage Facility) : Prop :=
  ∀ c ∈ u.held, c.key.value ≤ u.bridge.facility.lastConnection ∧
    ∀ d, u.bridge.facility.connections.get? c.key = some d → d.root = c.root

theorem Rightful.of_subset (h : Rightful u) (hheld : v.held ⊆ u.held)
    (hlast : u.bridge.facility.lastConnection ≤ v.bridge.facility.lastConnection)
    (horigin : ∀ {key d}, v.bridge.facility.connections.get? key = some d →
      u.bridge.facility.connections.get? key = some d ∨ key = ⟨u.bridge.facility.lastConnection + 1⟩) : Rightful v := by
  intro c hc
  obtain ⟨hle, hroot⟩ := h c (hheld hc)
  refine ⟨Int.le_trans hle hlast, fun d hd => ?_⟩
  rcases horigin hd with hd | hnew
  · exact hroot d hd
  · exact absurd hnew (ConnectionKey.ne_next hle)

theorem Rightful.next (h : Rightful u) (m : Move Facility.Move) : Rightful (u.next react m) := by
  have horigin : ∀ {key d}, (u.next react m).bridge.facility.connections.get? key = some d →
      u.bridge.facility.connections.get? key = some d ∨ key = ⟨u.bridge.facility.lastConnection + 1⟩ := by
    intro key d hd
    rcases facility_next u m with hsame | ⟨fm, -, hfm⟩
    · exact .inl (hsame ▸ hd)
    · exact (Facility.frame_next _ fm).roots.origin (hfm ▸ hd)
  have hlast := lastConnection_next u m
  cases linkage react u m with
  | kept ho hc hlive hheld => exact h.of_subset (by rw [hheld]; exact List.Subset.refl _) hlast horigin
  | closed c ho hc hmem hlive hheld => exact h.of_subset hheld hlast horigin
  | opened c ho hc hlive hheld =>
    intro d hd
    rw [hheld] at hd
    rcases List.mem_append.1 hd with hd | hd
    · exact h.of_subset (v := { u.next react m with held := u.held }) (List.Subset.refl _) hlast horigin d hd
    · obtain rfl := List.mem_singleton.1 hd
      obtain ⟨handler, hcall⟩ := connect_of_opens ho
      obtain ⟨-, -, -, hkey, hfacility⟩ := Facility.connect_ok.1 hcall
      rw [hfacility, hkey]
      refine ⟨Int.le_refl _, fun e he => ?_⟩
      rw [Table.get?_insert_self] at he
      obtain rfl := Option.some.inj he
      rfl

/-- What every state that a run comes to keeps of connections and transfers. -/
structure Orderly (u : Usage Facility) : Prop where
  anchored : u.bridge.facility.Anchored
  rooted : u.bridge.facility.Rooted
  rightful : Rightful u

theorem orderly_run (ms : List (Move Facility.Move)) : Orderly (run ms) := by
  obtain ⟨fms, hfms⟩ := exists_after ms
  refine ⟨hfms ▸ Facility.anchored_after fms, hfms ▸ Facility.rooted_after fms, ?_⟩
  induction ms using List.reverseRecOn generalizing fms with
  | nil => exact nofun
  | append_singleton ms m ih =>
    obtain ⟨fms, hfms⟩ := exists_after ms
    rw [run_append_singleton]
    exact (ih fms hfms).next m

/-! ## Operations that are not about a root -/

/-- The move is an operation about a root apart from `root`, about a path that is not below it, or on a connection key that
no root but such a one is connected with; or the plan of a refusal or another order of the tables. -/
def aside (root : Path) (u : Usage Facility) : Move Facility.Move → Bool
  | .register _ other _ _ | .unregister other | .connect other _ => other.apart root
  | .close place => (u.held[place]?).all (·.root.apart root)
  | .create parent name _ _ _ _ => !(parent.join name).startsWith root
  | .update path _ _ _ | .dehydrate path => !path.startsWith root
  | .deliver key _ _ => u.bridge.facility.foreign root key
  | .elsewhere (.planFault _ _) | .elsewhere (.rearrange _) => true
  | .elsewhere _ => false

/-- The moves from `u` on are all aside from `root`. -/
def allAside (root : Path) (u : Usage Facility) : List (Move Facility.Move) → Bool
  | [] => true
  | m :: ms => u.aside root m && allAside root (u.next react m) ms

theorem aside_of_makes (hu : Rightful u) (haside : u.aside root m = true) {fm : Facility.Move} (hmakes : u.Makes m fm) :
    u.bridge.facility.aside root fm = true := by
  cases m with
  | close place =>
    obtain ⟨c, hc, rfl⟩ := hmakes
    simp only [aside, hc, Option.all_some] at haside
    simp only [Facility.aside, Facility.foreign, Option.all_eq_true]
    intro d hd
    rw [(hu c (List.mem_of_getElem? hc)).2 d hd]
    exact haside
  | deliver key k completion =>
    obtain rfl := hmakes
    rw [Facility.aside, Completion.operation_connection]
    exact haside
  | elsewhere fm' =>
    obtain rfl : fm = fm' := hmakes
    cases fm with
    | planFault | rearrange => rfl
    | _ => cases haside
  | _ =>
    obtain rfl := hmakes
    exact haside

/-- `v` has of `root` what `u` has, and its connections are open or closed in the live table as before. -/
structure Untouched (root : Path) (u v : Usage Facility) : Prop where
  facility : u.bridge.facility.Undisturbed root v.bridge.facility
  live : ∀ key c, u.bridge.facility.connections.get? key = some c → c.root.route = root.route →
    v.bridge.live.root? key = u.bridge.live.root? key ∧ v.bridge.live.isClosed key = u.bridge.live.isClosed key

theorem Untouched.trans (h : Untouched root u v) (h' : Untouched root v w) : Untouched root u w where
  facility := h.facility.trans h'.facility
  live key c hc hroot := by
    obtain ⟨hlive, hclosed⟩ := h.live key c hc hroot
    obtain ⟨hlive', hclosed'⟩ := h'.live key c ((h.facility.connections key c hroot).2 hc) hroot
    exact ⟨hlive'.trans hlive, hclosed'.trans hclosed⟩

theorem untouched_next (hu : Orderly u) (haside : u.aside root m = true) : Untouched root u (u.next react m) where
  facility := by
    rcases facility_next u m with hsame | ⟨fm, hmakes, hfm⟩
    · rw [hsame]
      exact .refl root _
    · rw [hfm]
      exact Facility.undisturbed_next hu.anchored hu.rooted (aside_of_makes hu.rightful haside hmakes)
  live key c hc hroot := by
    cases linkage react u m with
    | kept ho hcloses hlive hheld => exact ⟨by rw [hlive], by rw [hlive]⟩
    | opened d ho hcloses hlive hheld =>
      have hne : key ≠ d.key := by
        rw [(key_of_opens ho).1]
        exact ConnectionKey.ne_next (hu.anchored.issued hc)
      rw [hlive, LiveTable.root?_record, if_neg hne, LiveTable.isClosed_record]
      simp [hne]
    | closed d ho hcloses hmem hlive hheld =>
      have hne : key ≠ d.key := by
        rintro rfl
        -- The connection that is closed has a root apart from `root`.
        cases m with
        | close place =>
          have hplace : u.held[place]? = some d := hcloses
          simp only [aside, hplace, Option.all_some] at haside
          rw [(hu.rightful d hmem).2 c hc] at hroot
          exact Path.route_ne_of_apart haside hroot
        | _ => cases hcloses
      rw [hlive, LiveTable.root?_retire, if_neg hne, LiveTable.isClosed_retire]
      simp [hne]

theorem untouched_run (haside : allAside root (run ms) rest = true) : Untouched root (run ms) (run (ms ++ rest)) := by
  induction rest generalizing ms with
  | nil =>
    rw [List.append_nil]
    exact ⟨.refl root _, fun _ _ _ _ => ⟨rfl, rfl⟩⟩
  | cons m rest ih =>
    obtain ⟨hm, hrest⟩ := Bool.and_eq_true_iff.1 haside
    have hnext := untouched_next (orderly_run ms) hm
    rw [← run_append_singleton] at hnext hrest
    have hall := hnext.trans (ih hrest)
    rwa [List.append_assoc, List.singleton_append] at hall

/-! ## The whole -/

/-- From every state that a run through the bridge comes to, whatever operations follow about other roots, with whatever
transfer keys: a root has the same registration and the same connection, open or closed as before; and the placeholders
below it and its transfers, those on its connection and those below it, are the same. -/
theorem roots_isolated (ms rest : List (Move Facility.Move)) (root : Path)
    (haside : allAside root (run ms) rest = true) :
    (run (ms ++ rest)).bridge.facility.registration? root = (run ms).bridge.facility.registration? root ∧
    (∀ key c, c.root.same root = true →
      ((run (ms ++ rest)).bridge.facility.connections.get? key = some c ↔
        (run ms).bridge.facility.connections.get? key = some c)) ∧
    (∀ key c, (run ms).bridge.facility.connections.get? key = some c → c.root.same root = true →
      (run (ms ++ rest)).bridge.live.root? key = (run ms).bridge.live.root? key ∧
      (run (ms ++ rest)).bridge.live.isClosed key = (run ms).bridge.live.isClosed key) ∧
    (∀ path, path.startsWith root = true →
      (run (ms ++ rest)).bridge.facility.placeholder? path = (run ms).bridge.facility.placeholder? path) ∧
    (∀ k t, t.path.startsWith root = true ∨
        (∃ c, (run ms).bridge.facility.connections.get? t.connection = some c ∧ c.root.same root = true) →
      ((run (ms ++ rest)).bridge.facility.transfers.get? k = some t ↔
        (run ms).bridge.facility.transfers.get? k = some t)) := by
  have h := untouched_run haside
  refine ⟨h.facility.registration, fun key c hsame => h.facility.connections key c (Path.same_iff.1 hsame),
    fun key c hc hsame => h.live key c hc (Path.same_iff.1 hsame),
    fun path hpath => h.facility.placeholders path.route (Path.startsWith_iff.1 hpath), fun k t ht => ?_⟩
  rcases ht with hpath | ⟨c, hc, hsame⟩
  · exact h.facility.transfers k t (Path.startsWith_iff.1 hpath)
  -- On both sides, a transfer on the open connection of `root` lies below `root`.
  · have hroute := Path.same_iff.1 hsame
    have hc' := (h.facility.connections _ c hroute).2 hc
    exact ⟨fun ht => (h.facility.transfers k t (hroute ▸ (orderly_run (ms ++ rest)).rooted.below ht hc')).1 ht,
      fun ht => (h.facility.transfers k t (hroute ▸ (orderly_run ms).rooted.below ht hc)).2 ht⟩

/-- Two roots of which one is called like the beginning of the other; a file of each is being hydrated. -/
def neighbours : List (Move Facility.Move) :=
  [.elsewhere (.register ⟨"/sync"⟩ (.new "s" "1")), .elsewhere (.register ⟨"/sync2"⟩ (.new "t" "1")),
    .connect ⟨"/sync"⟩ none, .connect ⟨"/sync2"⟩ none, .create ⟨"/sync"⟩ "a" (.ofText "o") 2 0 false,
    .create ⟨"/sync2"⟩ "b" (.ofText "p") 2 0 false, .elsewhere (.begin ⟨"/sync/a"⟩), .elsewhere (.begin ⟨"/sync2/b"⟩)]

/-- The other root answers with the transfer key of the first one, changes its own file, and leaves. -/
def neighbourLeaves : List (Move Facility.Move) :=
  [.deliver ⟨0x1002⟩ ⟨1⟩ (.data 0 [7, 7]), .deliver ⟨0x1002⟩ ⟨1⟩ (.failure 0 .failure), .deliver ⟨0x1002⟩ ⟨2⟩ (.data 0 [7]),
    .update ⟨"/sync2/b"⟩ (.ofText "q") 3 1, .close 1, .unregister ⟨"/sync2"⟩]

theorem roots_isolated_neighbours :
    allAside ⟨"/sync"⟩ (run neighbours) neighbourLeaves = true ∧
      ((run neighbours).bridge.facility.transfers.get? ⟨1⟩).map Transfer.phase = some .pending ∧
      ((run (neighbours ++ neighbourLeaves)).bridge.facility.transfers.get? ⟨1⟩).map Transfer.phase = some .pending ∧
      (run (neighbours ++ neighbourLeaves)).bridge.facility.registration? ⟨"/sync"⟩ =
        (run neighbours).bridge.facility.registration? ⟨"/sync"⟩ ∧
      (run (neighbours ++ neighbourLeaves)).bridge.facility.registration? ⟨"/sync2"⟩ = none := by
  have haside : allAside ⟨"/sync"⟩ (run neighbours) neighbourLeaves = true := by decide +kernel
  obtain ⟨hregistration, -, -, -, htransfers⟩ := roots_isolated neighbours neighbourLeaves ⟨"/sync"⟩ haside
  have hphase : ((run neighbours).bridge.facility.transfers.get? ⟨1⟩).map
      (fun t => (t.phase, t.path.startsWith ⟨"/sync"⟩)) = some (.pending, true) := by decide +kernel
  obtain ⟨t, ht, hpair⟩ := Option.map_eq_some_iff.1 hphase
  obtain ⟨hpending, hbelow⟩ := Prod.mk.inj hpair
  have hkept := (htransfers ⟨1⟩ t (.inl hbelow)).2 ht
  exact ⟨haside, by rw [ht, Option.map_some, hpending], by rw [hkept, Option.map_some, hpending], hregistration,
    by decide +kernel⟩

end OnDemand.Usage
