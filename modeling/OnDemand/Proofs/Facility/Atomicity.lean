import OnDemand.Facility.Recorded
import OnDemand.Proofs.Facility.Stepwise

/-!
# Refused calls

A refused call uses up the refusal that was planned for it, an operation on a transfer is logged, and nothing else has
changed. That is not for want of writes to undo: in the programs of the calls no check refuses after a write that has
changed something.
-/

namespace OnDemand.Facility

namespace Program

variable {α β : Type} {x : Program α} {k : α → Program β} {f g : Facility} {s : Status}

/-! ## Programs that leave no trace of a refusal -/

/-- A refusal by `x` leaves what `change` makes of the state that `x` was run from. -/
def Refusing (change : Facility → Facility) (x : Program α) : Prop :=
  ∀ ⦃f s g⦄, x.run f = (.error s, g) → g = change f

/-- A refusal by `x` leaves the state that `x` was run from. -/
def Atomic (x : Program α) : Prop := Refusing id x

def ReadsOnly (x : Program α) : Prop := ∀ f, (x.run f).2 = f

def NeverRefuses (x : Program α) : Prop := ∀ ⦃f s g⦄, x.run f ≠ (.error s, g)

theorem readsOnly_look (ask : Facility → α) : ReadsOnly (look ask) := fun _ => rfl

theorem readsOnly_demand (condition : Bool) (s : Status) : ReadsOnly (demand condition s) := by
  cases condition <;> exact fun _ => rfl

theorem readsOnly_demandSome (found : Option α) (s : Status) : ReadsOnly (demandSome found s) := by
  cases found <;> exact fun _ => rfl

theorem neverRefuses_pure (a : α) : NeverRefuses (pure a) := fun _ _ _ => nofun

theorem neverRefuses_look (ask : Facility → α) : NeverRefuses (look ask) := fun _ _ _ => nofun

theorem neverRefuses_write (change : Facility → Facility) : NeverRefuses (write change) := fun _ _ _ => nofun

theorem NeverRefuses.atomic (hx : NeverRefuses x) : Atomic x := fun _ _ _ h => (hx h).elim

theorem NeverRefuses.bind (hx : NeverRefuses x) (hk : ∀ a, NeverRefuses (k a)) : NeverRefuses (x >>= k) := by
  intro f s g h
  rw [run_bind] at h
  cases hrun : x.run f with
  | mk answer f' =>
    cases answer with
    | error s' => exact hx hrun
    | ok a =>
      rw [hrun] at h
      exact hk a h

/-- Reading beforehand leaves nothing to undo. -/
theorem ReadsOnly.bind (hx : ReadsOnly x) (hk : ∀ a, Atomic (k a)) : Atomic (x >>= k) := by
  intro f s g h
  rw [run_bind] at h
  have hstate := hx f
  cases hrun : x.run f with
  | mk answer f' =>
    rw [hrun] at h hstate
    cases hstate
    cases answer with
    | error s' => exact (Prod.mk.inj h).2.symm
    | ok a => exact hk a h

/-- What cannot refuse may follow anything. -/
theorem Refusing.bind {change : Facility → Facility} (hx : Refusing change x) (hk : ∀ a, NeverRefuses (k a)) :
    Refusing change (x >>= k) := by
  intro f s g h
  rw [run_bind] at h
  cases hrun : x.run f with
  | mk answer f' =>
    rw [hrun] at h
    cases answer with
    | error s' =>
      obtain ⟨-, rfl⟩ := Prod.mk.inj h
      exact hx hrun
    | ok a => exact (hk a h).elim

theorem refusing_meetPlan {op : Operation} {k : Unit → Program β} (hk : Atomic (k ())) :
    Refusing (dropFault op) (meetPlan op >>= k) := by
  intro f s g h
  rw [run_bind, run_meetPlan] at h
  cases hplan : f.faults op with
  | some planned =>
    rw [hplan] at h
    exact (Prod.mk.inj h).2.symm
  | none =>
    rw [hplan] at h
    exact hk h

/-! ## The calls -/

theorem refusing_register (root : Path) (registration : Registration) :
    Refusing (dropFault .register) (register root registration) := by
  apply refusing_meetPlan
  apply (readsOnly_look _).bind
  intro old
  exact (neverRefuses_write _).atomic

theorem refusing_unregister (root : Path) : Refusing (dropFault .unregister) (unregister root) := by
  apply refusing_meetPlan
  refine (readsOnly_look _).bind fun registered => (readsOnly_demand _ _).bind fun _ => ?_
  refine (readsOnly_look _).bind fun connected => (readsOnly_demand _ _).bind fun _ => ?_
  exact ((neverRefuses_write _).bind fun _ => neverRefuses_write _).atomic

theorem refusing_connect (root : Path) (handler : Handler) : Refusing (dropFault .connect) (connect root handler) := by
  apply refusing_meetPlan
  refine (readsOnly_look _).bind fun registered => (readsOnly_demand _ _).bind fun _ => ?_
  refine (readsOnly_look _).bind fun connected => (readsOnly_demand _ _).bind fun _ => ?_
  apply NeverRefuses.atomic
  refine (neverRefuses_write _).bind fun _ => (neverRefuses_look _).bind fun last => ?_
  exact (neverRefuses_write _).bind fun _ => neverRefuses_pure _

-- The write before the check takes out a connection; the check refuses only if there was none to take out.
theorem refusing_disconnect (key : ConnectionKey) : Refusing (dropFault .disconnect) (disconnect key) := by
  apply refusing_meetPlan
  intro f s g h
  rw [run_look_bind, run_write_bind, run_demand_bind] at h
  cases hthere : f.connections.contains key with
  | true =>
    rw [hthere] at h
    exact (neverRefuses_write _ h).elim
  | false =>
    rw [hthere, Table.erase_of_not_contains hthere] at h
    exact (Prod.mk.inj h).2.symm

theorem refusing_create (parent : Path) (new : NewPlaceholder) : Refusing (dropFault .create) (create parent new) := by
  apply refusing_meetPlan
  refine (readsOnly_look _).bind fun covering => (readsOnly_demandSome _ _).bind fun root => ?_
  refine (readsOnly_look _).bind fun holds => (readsOnly_demand _ _).bind fun _ => ?_
  refine (readsOnly_demand _ _).bind fun _ => ?_
  refine (readsOnly_look _).bind fun there => (readsOnly_demand _ _).bind fun _ => ?_
  exact (neverRefuses_write _).atomic

theorem refusing_update (path : Path) (metadata : Metadata) (identity : FileIdentity) :
    Refusing (dropFault .update) (update path metadata identity) := by
  apply refusing_meetPlan
  refine (readsOnly_look _).bind fun there => (readsOnly_demandSome _ _).bind fun _ => ?_
  apply NeverRefuses.atomic
  refine (neverRefuses_write _).bind fun _ => (neverRefuses_write _).bind fun _ => ?_
  exact (neverRefuses_write _).bind fun _ => neverRefuses_write _

theorem refusing_dehydrate (path : Path) : Refusing (dropFault .dehydrate) (dehydrate path) := by
  apply refusing_meetPlan
  refine (readsOnly_look _).bind fun there => (readsOnly_demandSome _ _).bind fun p => ?_
  refine (readsOnly_demand _ _).bind fun _ => (readsOnly_demand _ _).bind fun _ => ?_
  exact (neverRefuses_write _).atomic

theorem neverRefuses_receive (k : TransferKey) (path : Path) (offset : Nat) (data : Bytes) :
    NeverRefuses (receive k path offset data) := by
  refine (neverRefuses_write _).bind fun _ => (neverRefuses_write _).bind fun _ => ?_
  refine (neverRefuses_look _).bind fun whole => ?_
  split
  · refine (neverRefuses_write _).bind fun _ => (neverRefuses_look _).bind fun t => ?_
    exact (neverRefuses_write _).bind fun _ => neverRefuses_write _
  · exact neverRefuses_pure ()

theorem atomic_accept (op : TransferOperation) : Atomic (accept op) := by
  refine (readsOnly_look _).bind fun isOpen => (readsOnly_demand _ _).bind fun _ => ?_
  refine (readsOnly_look _).bind fun there => (readsOnly_demandSome _ _).bind fun t => ?_
  split
  · exact ((neverRefuses_write _).bind fun _ => neverRefuses_write _).atomic
  · refine (readsOnly_demandSome _ _).bind fun data => ?_
    refine (readsOnly_demand _ _).bind fun _ => (readsOnly_demand _ _).bind fun _ => ?_
    exact (neverRefuses_receive _ _ _ _).atomic

theorem refusing_execute (op : TransferOperation) :
    Refusing (fun f => (f.dropFault .transfer).logged op false) (execute op) := by
  intro f s g h
  have hbody : Refusing (dropFault .transfer) (do meetPlan .transfer; accept op) := refusing_meetPlan (atomic_accept op)
  obtain ⟨hanswer, rfl⟩ := Prod.mk.inj h
  have hstate := hbody (Prod.ext hanswer rfl)
  simp only [hanswer, hstate]
  rfl

end Program

/-! ## The calls as moves -/

/-- The operation whose planned refusal a call meets. -/
def Move.operation? : Move → Option Operation
  | .register _ _ => some .register
  | .unregister _ => some .unregister
  | .connect _ _ => some .connect
  | .disconnect _ => some .disconnect
  | .create _ _ => some .create
  | .update _ _ _ => some .update
  | .dehydrate _ => some .dehydrate
  | .execute _ => some .transfer
  | _ => none

def Move.program? : Move → Option (Program Unit)
  | .register root registration => some (Program.register root registration)
  | .unregister root => some (Program.unregister root)
  | .connect root handler => some (do let _ ← Program.connect root handler)
  | .disconnect key => some (Program.disconnect key)
  | .create parent new => some (Program.create parent new)
  | .update path metadata identity => some (Program.update path metadata identity)
  | .dehydrate path => some (Program.dehydrate path)
  | .execute op => some (Program.execute op)
  | _ => none

/-- The status with which a call is refused. -/
def refusal? (f : Facility) : Move → Option Status
  | .register root registration => Recorded.refusal? (register root registration f).1
  | .unregister root => Recorded.refusal? (unregister root f).1
  | .connect root handler => Recorded.refusal? (connect root handler f).1
  | .disconnect key => Recorded.refusal? (disconnect key f).1
  | .create parent new => Recorded.refusal? (create parent new f).1
  | .update path metadata identity => Recorded.refusal? (update path metadata identity f).1
  | .dehydrate path => Recorded.refusal? (dehydrate path f).1
  | .execute op => Recorded.refusal? (execute op f).1
  | _ => none

/-- The records that a refused call adds to the log. -/
def Move.refusedRecords : Move → List LoggedOperation
  | .execute op => [⟨op.connection, op.transfer, op.status, op.offset, op.length, false⟩]
  | _ => []

/-- The state `f` after a call that has been refused. -/
def afterRefusal (m : Move) (f : Facility) : Facility :=
  { f with
    faults := fun op => if m.operation? = some op then none else f.faults op
    log := f.log ++ m.refusedRecords }

variable {f g : Facility} {m : Move} {s : Status} {x : Program Unit}

/-- The program of a call, run from `f`, gives the answer of the call and leaves the state that the call leaves. -/
theorem program_run (h : m.program? = some x) (f : Facility) :
    Recorded.refusal? (x.run f).1 = f.refusal? m ∧ (x.run f).2 = f.next m := by
  cases m with
  | register root registration =>
    cases h
    rw [Program.run_register]
    exact ⟨rfl, rfl⟩
  | unregister root =>
    cases h
    rw [Program.run_unregister]
    exact ⟨rfl, rfl⟩
  | connect root handler =>
    cases h
    rw [Program.run_bind, Program.run_connect]
    simp only [refusal?, next]
    rcases connect root handler f with ⟨_ | _, g⟩ <;> exact ⟨rfl, rfl⟩
  | disconnect key =>
    cases h
    rw [Program.run_disconnect]
    exact ⟨rfl, rfl⟩
  | create parent new =>
    cases h
    rw [Program.run_create]
    exact ⟨rfl, rfl⟩
  | update path metadata identity =>
    cases h
    rw [Program.run_update]
    exact ⟨rfl, rfl⟩
  | dehydrate path =>
    cases h
    rw [Program.run_dehydrate]
    exact ⟨rfl, rfl⟩
  | execute op =>
    cases h
    rw [Program.run_execute]
    exact ⟨rfl, rfl⟩
  | _ => cases h

theorem refusing_afterRefusal {op : Operation} (hop : m.operation? = some op) (hrecords : m.refusedRecords = [])
    (hx : x.Refusing (dropFault op)) : x.Refusing (afterRefusal m) := by
  intro f s g h
  rw [hx h]
  simp only [afterRefusal, dropFault, hop, hrecords, List.append_nil, Option.some.injEq, eq_comm]

theorem program_refusing (h : m.program? = some x) : x.Refusing (afterRefusal m) := by
  cases m with
  | register root registration =>
    cases h
    exact refusing_afterRefusal rfl rfl (Program.refusing_register root registration)
  | unregister root =>
    cases h
    exact refusing_afterRefusal rfl rfl (Program.refusing_unregister root)
  | connect root handler =>
    cases h
    apply refusing_afterRefusal rfl rfl
    exact (Program.refusing_connect root handler).bind fun _ => Program.neverRefuses_pure ()
  | disconnect key =>
    cases h
    exact refusing_afterRefusal rfl rfl (Program.refusing_disconnect key)
  | create parent new =>
    cases h
    exact refusing_afterRefusal rfl rfl (Program.refusing_create parent new)
  | update path metadata identity =>
    cases h
    exact refusing_afterRefusal rfl rfl (Program.refusing_update path metadata identity)
  | dehydrate path =>
    cases h
    exact refusing_afterRefusal rfl rfl (Program.refusing_dehydrate path)
  | execute op =>
    cases h
    intro f s g h
    rw [Program.refusing_execute op h]
    simp only [afterRefusal, dropFault, logged, Move.operation?, Move.refusedRecords, Option.some.injEq, eq_comm]
  | _ => cases h

theorem refusal?_eq_some {α : Type} {answer : Except Status α} :
    Recorded.refusal? answer = some s ↔ answer = .error s := by
  cases answer <;> simp [Recorded.refusal?]

theorem exists_program (h : f.refusal? m = some s) : ∃ x, m.program? = some x := by
  cases m with
  | planFault | markInUse | fill | begin | read | giveUp | rearrange => cases h
  | _ => exact ⟨_, rfl⟩

theorem next_of_refusal (h : f.refusal? m = some s) : f.next m = f.afterRefusal m := by
  obtain ⟨x, hx⟩ := exists_program h
  obtain ⟨hanswer, hnext⟩ := program_run hx f
  have hrun : x.run f = (.error s, f.next m) := Prod.ext (refusal?_eq_some.1 (hanswer.trans h)) hnext
  exact program_refusing hx hrun

end OnDemand.Facility
