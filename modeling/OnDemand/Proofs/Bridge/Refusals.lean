import OnDemand.Proofs.Bridge.InMemory
import OnDemand.Proofs.Facility.Atomicity

/-!
# Refused operations

An operation of the bridge that fails has left the live table and the connections held as they were. It has not reached
the facility, or made the one call there that was refused.
-/

namespace OnDemand

namespace Usage

variable {u : Usage Facility} {m : Move Facility.Move}

/-- The operation of the bridge that `m` is fails. -/
def refuses (u : Usage Facility) : Move Facility.Move → Bool
  | .register files root name version => !(Bridge.register files root name version u.bridge).1.isOk
  | .unregister root => !(Bridge.unregister root u.bridge).1.isOk
  | .connect root handler => !(Bridge.connect root handler u.bridge).1.isOk
  | .create parent name identity size mtime directory =>
    !(Bridge.create parent name identity size mtime directory u.bridge).1.isOk
  | .update path identity size mtime => !(Bridge.update path identity size mtime u.bridge).1.isOk
  | .dehydrate path => !(Bridge.dehydrate path u.bridge).1.isOk
  | .deliver connection transfer c => !(u.bridge.deliver connection transfer c).1.isOk
  | .close _ | .elsewhere _ => false

/-- What is refused opens no connection and closes none. -/
theorem live_of_refuses (h : u.refuses m = true) :
    (u.next react m).bridge.live = u.bridge.live ∧ (u.next react m).held = u.held := by
  cases linkage react u m with
  | kept ho hc hlive hheld => exact ⟨hlive, hheld⟩
  | opened c ho hc hlive hheld =>
    cases m with
    | connect root handler =>
      simp only [refuses, opens?] at h ho
      cases hconnect : (Bridge.connect root handler u.bridge).1 with
      | error e =>
        rw [hconnect] at ho
        cases ho
      | ok opened =>
        rw [hconnect] at h
        cases h
    | _ => cases ho
  | closed c ho hc hmem hlive hheld =>
    cases m with
    | close place => cases h
    | _ => cases hc

/-- A call that the bridge makes for `m`, and that fails, is the move `fm` of the facility, and is refused there. -/
theorem refused_of_ask {α ε : Type} {call : Call Facility α} {sort : Status → ε} (fm : Facility.Move)
    (hmakes : u.Makes m fm) (hanswer : u.bridge.facility.refusal? fm = Recorded.refusal? (call u.bridge.facility).1)
    (hstate : u.bridge.facility.next fm = (call u.bridge.facility).2)
    (h : (Bridge.ask call sort u.bridge).1.isOk = false) :
    ∃ fm s, u.Makes m fm ∧ u.bridge.facility.refusal? fm = some s ∧
      (Bridge.ask call sort u.bridge).2.facility = u.bridge.facility.afterRefusal fm := by
  change ((call u.bridge.facility).1.mapError sort).isOk = false at h
  cases hcall : (call u.bridge.facility).1 with
  | ok a =>
    rw [hcall] at h
    cases h
  | error s =>
    rw [hcall] at hanswer
    exact ⟨fm, s, hmakes, hanswer, hstate.symm.trans (Facility.next_of_refusal hanswer)⟩

theorem facility_of_refuses (h : u.refuses m = true) :
    (u.next react m).bridge.facility = u.bridge.facility ∨
      ∃ fm s, u.Makes m fm ∧ u.bridge.facility.refusal? fm = some s ∧
        (u.next react m).bridge.facility = u.bridge.facility.afterRefusal fm := by
  cases m with
  | register files root name version =>
    simp only [refuses, next, Bridge.register, Bool.not_eq_true'] at h ⊢
    split
    · exact .inl rfl
    · rename_i hasked
      rw [if_neg hasked] at h
      exact .inr (refused_of_ask (.register root (.new name version)) rfl rfl rfl h)
  | unregister root =>
    simp only [refuses, next, Bridge.unregister, Bool.not_eq_true'] at h ⊢
    exact .inr (refused_of_ask (.unregister root) rfl rfl rfl h)
  | connect root handler =>
    simp only [refuses, next, Bridge.connect, Bool.not_eq_true'] at h ⊢
    cases hanswer : Bridge.accept root handler u.bridge with
    | mk answer b =>
      cases answer with
      | ok key =>
        rw [hanswer] at h
        cases h
      | error e =>
        have hask : (Bridge.accept root handler u.bridge).1.isOk = false := by rw [hanswer]; rfl
        have hrefused := refused_of_ask (m := .connect root handler) (.connect root handler) rfl rfl rfl hask
        change ∃ fm s, _ ∧ _ ∧ (Bridge.accept root handler u.bridge).2.facility = _ at hrefused
        rw [hanswer] at hrefused
        exact .inr hrefused
  | create parent name identity size mtime directory =>
    simp only [refuses, next, Bridge.create, Bool.not_eq_true'] at h ⊢
    split
    · rename_i hasked
      rw [if_pos hasked] at h
      exact .inr (refused_of_ask (.create parent (.of name identity size mtime directory)) rfl rfl rfl h)
    · exact .inl rfl
  | update path identity size mtime =>
    simp only [refuses, next, Bridge.update, Bool.not_eq_true'] at h ⊢
    split
    · rename_i hasked
      rw [if_pos hasked] at h
      exact .inr (refused_of_ask (.update path (.amendment size mtime) identity) rfl rfl rfl h)
    · exact .inl rfl
  | dehydrate path =>
    simp only [refuses, next, Bridge.dehydrate, Bool.not_eq_true'] at h ⊢
    exact .inr (refused_of_ask (.dehydrate path) rfl rfl rfl h)
  | deliver connection transfer c =>
    simp only [refuses, next, Bool.not_eq_true'] at h ⊢
    cases hasks : u.bridge.asks connection c with
    | false => exact .inl (by rw [Bridge.deliver_not_asked hasks])
    | true =>
      rw [Bridge.deliver_asked hasks] at h ⊢
      exact .inr (refused_of_ask (.execute (c.operation connection transfer)) rfl rfl rfl h)
  | close place => cases h
  | elsewhere fm => cases h

/-! ## The whole -/

/-- Each of the eight calls on the facility, if it is refused, uses up the refusal planned for it, and one record of an
operation on a transfer is added to the log; nothing else changes, although nothing is undone: the call does what its
program does. An operation of the bridge that fails leaves the live table and the connections held as they were, and
the facility as it was or after a refused call. -/
theorem refused_operations_change_nothing :
    (∀ (f : Facility) (m : Facility.Move) (s : Status), f.refusal? m = some s → f.next m = f.afterRefusal m) ∧
    (∀ (f : Facility) (m : Facility.Move) (x : Facility.Program Unit), m.program? = some x →
      Recorded.refusal? (x.run f).1 = f.refusal? m ∧ (x.run f).2 = f.next m) ∧
    ∀ (u : Usage Facility) (m : Move Facility.Move), u.refuses m = true →
      (u.next react m).bridge.live = u.bridge.live ∧ (u.next react m).held = u.held ∧
        ((u.next react m).bridge.facility = u.bridge.facility ∨
          ∃ fm s, u.Makes m fm ∧ u.bridge.facility.refusal? fm = some s ∧
            (u.next react m).bridge.facility = u.bridge.facility.afterRefusal fm) := by
  refine ⟨fun f m s h => Facility.next_of_refusal h, fun f m x h => Facility.program_run h f, fun u m h => ?_⟩
  obtain ⟨hlive, hheld⟩ := live_of_refuses h
  exact ⟨hlive, hheld, facility_of_refuses h⟩

/-- A fetch of four bytes, of which one has come, and a refusal that the next answer will meet. -/
def halfFetched : List (Move Facility.Move) :=
  [.elsewhere (.register ⟨"/r"⟩ (.new "r" "1")), .connect ⟨"/r"⟩ none, .create ⟨"/r"⟩ "a" (.ofText "a") 4 1 false,
    .elsewhere (.begin ⟨"/r/a"⟩), .deliver ⟨0x1001⟩ ⟨1⟩ (.data 0 [1]),
    .elsewhere (.planFault .transfer .accessDenied)]

/-- Two bytes that are said to be three, from before the beginning. -/
def misplaced : TransferOperation := ⟨⟨0x1001⟩, ⟨1⟩, .success, some [8, 9], -1, 3⟩

theorem refused_operations_change_nothing_halfFetched :
    let u := run halfFetched
    let f := u.bridge.facility.dropFault .transfer
    (u.bridge.facility.refusal? (.execute misplaced) = some .accessDenied ∧
      u.bridge.facility.next (.execute misplaced) = u.bridge.facility.afterRefusal (.execute misplaced)) ∧
    (f.refusal? (.execute misplaced) = some .invalidArgument ∧
      f.next (.execute misplaced) = f.afterRefusal (.execute misplaced) ∧
      ((Facility.Program.execute misplaced).run f).2 = f.next (.execute misplaced)) ∧
    u.refuses (.connect ⟨"/r/"⟩ none) = true ∧
    (u.next react (.connect ⟨"/r/"⟩ none)).bridge.live = u.bridge.live := by
  intro u f
  obtain ⟨hcalls, hprograms, hbridge⟩ := refused_operations_change_nothing
  have hplanned : u.bridge.facility.refusal? (.execute misplaced) = some .accessDenied := by decide +kernel
  have hchecked : f.refusal? (.execute misplaced) = some .invalidArgument := by decide +kernel
  have hconnected : u.refuses (.connect ⟨"/r/"⟩ none) = true := by decide +kernel
  exact ⟨⟨hplanned, hcalls _ _ _ hplanned⟩, ⟨hchecked, hcalls _ _ _ hchecked, (hprograms f _ _ rfl).2⟩, hconnected,
    (hbridge u _ hconnected).1⟩

end Usage

end OnDemand
