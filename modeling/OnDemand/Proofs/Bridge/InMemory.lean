import OnDemand.Proofs.Bridge.ClosedKeys
import OnDemand.Proofs.Facility.Content
import OnDemand.Proofs.Facility.Frame

/-!
# Runs over the facility in memory

What a run through a bridge does to the facility in memory is a run of that facility: each move of the bridge makes one
move of the facility or none. So no refusal is met that was not planned, and no connection key is issued twice.
-/

namespace OnDemand.Usage

/-- The moves beside the bridge are moves of the facility. -/
def react (m : Facility.Move) (f : Facility) : Facility := f.next m

variable {u : Usage Facility} {m : Move Facility.Move} {ms rest : List (Move Facility.Move)} {k : TransferKey}

/-! ## Runs of the facility -/

/-- The move of `u` can make the move `fm` of the facility. -/
def Makes (u : Usage Facility) : Move Facility.Move → Facility.Move → Prop
  | .register _ root name version, fm => fm = .register root (.new name version)
  | .unregister root, fm => fm = .unregister root
  | .connect root handler, fm => fm = .connect root handler
  | .close place, fm => ∃ c, u.held[place]? = some c ∧ fm = .disconnect c.key
  | .create parent name identity size mtime directory, fm => fm = .create parent (.of name identity size mtime directory)
  | .update path identity size mtime, fm => fm = .update path (.amendment size mtime) identity
  | .dehydrate path, fm => fm = .dehydrate path
  | .deliver connection transfer c, fm => fm = .execute (c.operation connection transfer)
  | .elsewhere fm', fm => fm = fm'

/-- A move leaves the facility as it is, or makes one move of it. -/
theorem facility_next (u : Usage Facility) (m : Move Facility.Move) :
    (u.next react m).bridge.facility = u.bridge.facility ∨
      ∃ fm, u.Makes m fm ∧ (u.next react m).bridge.facility = u.bridge.facility.next fm := by
  cases m with
  | register files root name version =>
    simp only [next, Bridge.register]
    split
    · exact .inl rfl
    · exact .inr ⟨_, rfl, rfl⟩
  | unregister root => exact .inr ⟨_, rfl, rfl⟩
  | connect root handler =>
    refine .inr ⟨_, rfl, ?_⟩
    cases h : Bridge.accept root handler u.bridge with
    | mk answer b =>
      have hb : b.facility = u.bridge.facility.next (.connect root handler) := congrArg (·.2.facility) h.symm
      cases answer <;> simp [next, Bridge.connect, Bridge.record, h, hb]
  | close place =>
    cases hc : u.held[place]? with
    | none => exact .inl (by simp [next, hc])
    | some c => exact .inr ⟨_, ⟨c, hc, rfl⟩, by simp only [next, hc]; rfl⟩
  | create parent name identity size mtime directory =>
    simp only [next, Bridge.create]
    split
    · exact .inr ⟨_, rfl, rfl⟩
    · exact .inl rfl
  | update path identity size mtime =>
    simp only [next, Bridge.update]
    split
    · exact .inr ⟨_, rfl, rfl⟩
    · exact .inl rfl
  | dehydrate path => exact .inr ⟨_, rfl, rfl⟩
  | deliver connection transfer c => exact (Bridge.deliver_facility ..).imp_right fun h => ⟨_, rfl, h⟩
  | elsewhere fm => exact .inr ⟨fm, rfl, rfl⟩

/-- Refusals are planned without the bridge. -/
theorem Makes.elsewhere {op : Operation} {s : Status} (h : u.Makes m (.planFault op s)) : m = .elsewhere (.planFault op s) := by
  cases m with
  | close place =>
    obtain ⟨c, -, hfm⟩ := h
    cases hfm
  | elsewhere fm => rw [h]
  | _ => cases h

/-- What a run does to the facility is a run of the facility. -/
theorem facility_foldl (u : Usage Facility) (ms : List (Move Facility.Move)) :
    ∃ fms : List Facility.Move,
      (ms.foldl (next react) u).bridge.facility = fms.foldl Facility.next u.bridge.facility := by
  induction ms generalizing u with
  | nil => exact ⟨[], rfl⟩
  | cons m ms ih =>
    obtain ⟨fms, hfms⟩ := ih (u.next react m)
    rcases facility_next u m with h | ⟨fm, -, h⟩
    · exact ⟨fms, by rw [List.foldl_cons, hfms, h]⟩
    · exact ⟨fm :: fms, by rw [List.foldl_cons, hfms, h, List.foldl_cons]⟩

/-- The state after a run from the empty facility. -/
def run (ms : List (Move Facility.Move)) : Usage Facility := after react .empty ms

@[simp] theorem run_append_singleton : run (ms ++ [m]) = (run ms).next react m := after_append_singleton

theorem run_append (ms rest : List (Move Facility.Move)) : run (ms ++ rest) = rest.foldl (next react) (run ms) :=
  List.foldl_append ..

theorem exists_after (ms : List (Move Facility.Move)) : ∃ fms, (run ms).bridge.facility = Facility.after fms :=
  facility_foldl (start .empty) ms

theorem issued (ht : ∃ t, (run ms).bridge.facility.transfers.get? k = some t) :
    k.value ≤ (run ms).bridge.facility.lastTransfer := by
  obtain ⟨t, ht⟩ := ht
  obtain ⟨fms, hfms⟩ := exists_after ms
  rw [hfms] at ht ⊢
  exact (Facility.traced_after fms).issued ht

theorem clear_of_never_planned {op : Operation} (h : ∀ s, .elsewhere (.planFault op s) ∉ ms) :
    (run ms).bridge.facility.faults op = none := by
  induction ms using List.reverseRecOn with
  | nil => rfl
  | append_singleton ms m ih =>
    have hclear := ih fun s hs => h s (List.mem_append_left _ hs)
    rw [run_append_singleton]
    rcases facility_next (run ms) m with hsame | ⟨fm, hmakes, hfm⟩
    · rwa [hsame]
    · rw [hfm]
      refine (Facility.frame_next _ fm).clear op (fun s hs => h s ?_) hclear
      subst hs
      rw [hmakes.elsewhere]
      exact List.mem_append_right _ List.mem_cons_self

/-! ## Connection keys -/

theorem lastConnection_next (u : Usage Facility) (m : Move Facility.Move) :
    u.bridge.facility.lastConnection ≤ (u.next react m).bridge.facility.lastConnection := by
  rcases facility_next u m with h | ⟨fm, -, h⟩
  · exact Int.le_of_eq (congrArg _ h.symm)
  · rw [h]
    exact (Facility.frame_next _ fm).lastConnection

theorem accept_eq {root : Path} {handler : Handler} {b : Bridge Facility} {answer : Except Status ConnectionKey}
    {g : Facility} (h : Facility.connect root handler b.facility = (answer, g)) :
    Bridge.accept root handler b = (answer.mapError (.classify root), { b with facility := g }) := by
  rw [Bridge.accept, Bridge.ask, show CloudFacility.connectRoot root handler b.facility = (answer, g) from h]

/-- A connection is opened by a call that the facility has accepted. -/
theorem connect_of_opens {c : OpenConnection} (h : u.opens? m = some c) :
    ∃ handler, Facility.connect c.root handler u.bridge.facility = (.ok c.key, (u.next react m).bridge.facility) := by
  cases m with
  | connect root handler =>
    refine ⟨handler, ?_⟩
    cases hcall : Facility.connect root handler u.bridge.facility with
    | mk answer g =>
      cases answer with
      | error s => simp [opens?, Bridge.connect, accept_eq hcall, Except.mapError, Except.toOption] at h
      | ok key =>
        simp only [opens?, Bridge.connect, accept_eq hcall, Except.mapError, Except.toOption, Option.some.injEq] at h
        subst h
        simp [next, Bridge.connect, accept_eq hcall, Except.mapError, Bridge.record, hcall]
  | _ => cases h

theorem key_of_opens {c : OpenConnection} (h : u.opens? m = some c) :
    c.key = ⟨u.bridge.facility.lastConnection + 1⟩ ∧
      (u.next react m).bridge.facility.lastConnection = u.bridge.facility.lastConnection + 1 := by
  obtain ⟨handler, hcall⟩ := connect_of_opens h
  obtain ⟨-, -, -, hkey, hfacility⟩ := Facility.connect_ok.1 hcall
  exact ⟨hkey, by rw [hfacility]⟩

theorem opened_le (ms : List (Move Facility.Move)) :
    ∀ c ∈ (start .empty).opened react ms, c.key.value ≤ (run ms).bridge.facility.lastConnection := by
  induction ms using List.reverseRecOn with
  | nil => exact nofun
  | append_singleton ms m ih =>
    intro c hc
    rw [opened_append_singleton] at hc
    rw [run_append_singleton]
    rcases List.mem_append.1 hc with hc | hc
    · exact Int.le_trans (ih c hc) (lastConnection_next _ m)
    · obtain ⟨hkey, hlast⟩ := key_of_opens (Option.mem_toList.1 hc)
      rw [hkey]
      exact Int.le_of_eq hlast.symm

/-- Keys are counted up. -/
theorem opened_increasing (ms : List (Move Facility.Move)) :
    ((start .empty).opened react ms).Pairwise fun c d => c.key.value < d.key.value := by
  induction ms using List.reverseRecOn with
  | nil => exact .nil
  | append_singleton ms m ih =>
    rw [opened_append_singleton, List.pairwise_append]
    refine ⟨ih, ?_, fun c hc d hd => ?_⟩
    · cases (List.foldl (next react) (start .empty) ms).opens? m <;> simp
    · rw [(key_of_opens (Option.mem_toList.1 hd)).1]
      exact Int.lt_add_one_of_le (opened_le ms c hc)

-- Keys are counted up, so the key of a new connection has never been closed.
theorem fresh_of_opens {c : OpenConnection} {key : ConnectionKey} (h : (run ms).opens? m = some c)
    (hclosed : (run ms).bridge.live.isClosed key = true) : key ≠ c.key := by
  obtain ⟨d, hd, rfl⟩ := (known_after ms).closed _ hclosed
  rw [(key_of_opens h).1]
  exact ConnectionKey.ne_next (opened_le ms d hd)

theorem isClosed_next {key : ConnectionKey} (hclosed : (run ms).bridge.live.isClosed key = true) :
    ((run ms).next react m).bridge.live.isClosed key = true := by
  cases linkage react (run ms) m with
  | kept ho hc hlive hheld => rwa [hlive]
  | opened c ho hc hlive hheld => simp [hlive, LiveTable.isClosed_record, hclosed, fresh_of_opens ho hclosed]
  | closed c ho hc hmem hlive hheld => simp [hlive, LiveTable.isClosed_retire, hclosed]

end OnDemand.Usage
