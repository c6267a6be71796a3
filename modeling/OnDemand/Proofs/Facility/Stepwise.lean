import OnDemand.Proofs.Facility.Run

/-!
# Calls step by step

Each call on the facility once more, as a program: its checks and its writes one after the other, where a refusal ends
the program and undoes nothing. Each program does what the call does that it is named after.
-/

namespace OnDemand

namespace Facility

/-- Checks and writes on the facility. A refusal ends the program and undoes nothing. -/
abbrev Program (α : Type) := ExceptT Status (StateM Facility) α

namespace Program

variable {α β : Type} {f g : Facility} {s : Status}

/-! ## Single steps -/

def look (ask : Facility → α) : Program α := do return ask (← get)

def write (change : Facility → Facility) : Program Unit := modify change

def demand (condition : Bool) (status : Status) : Program Unit :=
  if condition then pure () else throw status

def demandSome (found : Option α) (status : Status) : Program α :=
  match found with
  | some a => pure a
  | none => throw status

/-- Uses up the refusal planned for `op`, and meets it. -/
def meetPlan (op : Operation) : Program Unit := do
  let planned ← look fun f => f.faults op
  write (dropFault op)
  match planned with
  | some status => throw status
  | none => pure ()

def alterPlaceholder (path : Path) (change : Placeholder → Placeholder) : Program Unit :=
  write fun f => { f with placeholders := f.placeholders.modify path.route change }

def alterTransfer (k : TransferKey) (change : Transfer → Transfer) : Program Unit :=
  write fun f => { f with transfers := f.transfers.modify k change }

/-! ## The calls -/

def register (root : Path) (registration : Registration) : Program Unit := do
  meetPlan .register
  let old ← look (·.registration? root)
  write fun f => { f with
    registrations := f.registrations.insert root.route ⟨(old.map (·.path)).getD root, registration⟩ }

def unregister (root : Path) : Program Unit := do
  meetPlan .unregister
  demand (← look (·.registration? root)).isSome .notFound
  demand (!(← look (·.isConnected root))) .inUse
  write fun f => { f with registrations := f.registrations.erase root.route }
  write fun f => { f with placeholders := f.placeholders.filter fun route _ => !root.route.isPrefixOf route }

def connect (root : Path) (handler : Handler) : Program ConnectionKey := do
  meetPlan .connect
  demand (← look (·.registration? root)).isSome .notFound
  demand (!(← look (·.isConnected root))) .alreadyConnected
  write fun f => { f with lastConnection := f.lastConnection + 1 }
  let key : ConnectionKey := ⟨← look (·.lastConnection)⟩
  write fun f => { f with connections := f.connections.insert key ⟨root, handler⟩ }
  return key

/-- The connection is taken out first, and only then it is asked whether there was one. -/
def disconnect (key : ConnectionKey) : Program Unit := do
  meetPlan .disconnect
  let there ← look (·.connections.contains key)
  write fun f => { f with connections := f.connections.erase key }
  demand there .notFound
  write fun f => { f with transfers := f.transfers.mapValues fun _ t => closed key t }

def create (parent : Path) (new : NewPlaceholder) : Program Unit := do
  meetPlan .create
  let root ← demandSome (← look (·.coveringRoot? parent)) .notACloudFile
  demand (← look (·.holdsChildren root parent)) .pathNotFound
  demand new.identity.fits .invalidArgument
  let path := parent.join new.name
  demand (← look (·.placeholder? path)).isNone .alreadyExists
  write fun f => { f with placeholders := f.placeholders.insert path.route (.create path new) }

def update (path : Path) (metadata : Metadata) (identity : FileIdentity) : Program Unit := do
  meetPlan .update
  let _ ← demandSome (← look (·.placeholder? path)) .fileNotFound
  alterPlaceholder path fun p => { p with metadata := { p.metadata with size := metadata.size } }
  alterPlaceholder path fun p => { p with metadata := p.metadata.amend metadata }
  alterPlaceholder path fun p => { p with identity }
  alterPlaceholder path fun p => { p with inSync := true }

def dehydrate (path : Path) : Program Unit := do
  meetPlan .dehydrate
  let p ← demandSome (← look (·.placeholder? path)) .fileNotFound
  demand (!p.isDirectory) .isDirectory
  demand (!p.inUse) .inUse
  alterPlaceholder path fun p => { p with content := none }

/-- The transfer has failed, and then its buffer is cleared. -/
def failTransfer (k : TransferKey) (status : Status) : Program Unit := do
  alterTransfer k fun t => { t with phase := .failed status }
  alterTransfer k fun t => { t with buffer := [] }

/-- The transfer is completed, its buffer taken, and then given to the placeholder. -/
def completeTransfer (k : TransferKey) (path : Path) : Program Unit := do
  alterTransfer k fun t => { t with phase := .completed }
  let content := ((← look (·.transfers.get? k)).map (·.buffer)).getD []
  alterTransfer k fun t => { t with buffer := [] }
  alterPlaceholder path fun p => { p with content := some content }

def receive (k : TransferKey) (path : Path) (offset : Nat) (data : Bytes) : Program Unit := do
  alterTransfer k fun t => { t with buffer := t.buffer.splice offset data }
  alterTransfer k fun t => { t with received := t.received.add ⟨offset, offset + data.length⟩ }
  if (← look (·.transfers.get? k)).any Transfer.isComplete then completeTransfer k path

def accept (op : TransferOperation) : Program Unit := do
  demand (← look (·.connections.contains op.connection)) .providerNotRunning
  let t ← demandSome ((← look (·.transfers.get? op.transfer)).filter fun t => t.connection = op.connection ∧ t.isPending)
    .invalidRequest
  if !op.status.isSuccess then failTransfer op.transfer op.status
  else
    let data ← demandSome op.buffer .invalidArgument
    demand (0 ≤ op.offset && op.length = data.length) .invalidArgument
    demand (op.offset.toNat + data.length ≤ t.length) .invalidArgument
    receive op.transfer t.path op.offset.toNat data

/-- Whatever the answer is, it is logged before it is given. -/
def execute (op : TransferOperation) : Program Unit := fun f =>
  let result := (do meetPlan .transfer; accept op : Program Unit).run f
  (result.1, result.2.logged op result.1.isOk)

/-! ## Running a program -/

theorem run_bind (x : Program α) (k : α → Program β) (f : Facility) :
    (x >>= k).run f = match x.run f with
      | (.ok a, g) => (k a).run g
      | (.error s, g) => (.error s, g) := by
  show (ExceptT.bindCont k (x f).1) (x f).2 = _
  rw [ExceptT.run]
  rcases x f with ⟨_ | _, g⟩ <;> rfl

@[simp] theorem run_pure (a : α) (f : Facility) : (pure a : Program α).run f = (.ok a, f) := rfl

@[simp] theorem run_look_bind (ask : Facility → α) (k : α → Program β) (f : Facility) :
    (look ask >>= k).run f = (k (ask f)).run f := rfl

@[simp] theorem run_write (change : Facility → Facility) (f : Facility) :
    (write change).run f = (.ok (), change f) := rfl

@[simp] theorem run_write_bind (change : Facility → Facility) (k : Unit → Program β) (f : Facility) :
    (write change >>= k).run f = (k ()).run (change f) := rfl

@[simp] theorem run_demand_bind (condition : Bool) (s : Status) (k : Unit → Program β) (f : Facility) :
    (demand condition s >>= k).run f = if condition then (k ()).run f else (.error s, f) := by
  cases condition <;> rfl

@[simp] theorem run_demandSome_bind (found : Option α) (s : Status) (k : α → Program β) (f : Facility) :
    (demandSome found s >>= k).run f = match found with
      | some a => (k a).run f
      | none => (.error s, f) := by
  cases found <;> rfl

theorem run_meetPlan (op : Operation) (f : Facility) :
    (meetPlan op).run f = match f.faults op with
      | some s => (.error s, f.dropFault op)
      | none => (.ok (), f.dropFault op) := by
  unfold meetPlan
  rw [run_look_bind, run_write_bind]
  cases f.faults op <;> rfl

/-- The answer of a call and the state after it: a refusal leaves the state `g`. -/
def settle (g : Facility) : Except Status (α × Facility) → Except Status α × Facility
  | .ok (a, h) => (.ok a, h)
  | .error s => (.error s, g)

/-- A program that meets the plan of `op` and then does what `body` says is the attempt of `body`. -/
theorem run_meetPlan_bind {op : Operation} {body : Facility → Except Status (α × Facility)} {k : Unit → Program α}
    (h : ∀ g, (k ()).run g = settle g (body g)) (f : Facility) : (meetPlan op >>= k).run f = attempt op body f := by
  rw [run_bind, run_meetPlan, attempt]
  cases f.faults op with
  | some s => rfl
  | none =>
    simp only [h]
    cases body (f.dropFault op) <;> rfl

/-! ## Each program is its call -/

theorem run_register (root : Path) (registration : Registration) (f : Facility) :
    (register root registration).run f = Facility.register root registration f := by
  refine run_meetPlan_bind (fun g => ?_) f
  rw [run_look_bind, run_write]
  rfl

theorem run_unregister (root : Path) (f : Facility) : (unregister root).run f = Facility.unregister root f := by
  refine run_meetPlan_bind (fun g => ?_) f
  simp only [run_look_bind, run_demand_bind, run_write_bind, run_write, check_bind]
  cases (g.registration? root).isSome <;> cases g.isConnected root <;> rfl

theorem run_connect (root : Path) (handler : Handler) (f : Facility) :
    (connect root handler).run f = Facility.connect root handler f := by
  refine run_meetPlan_bind (fun g => ?_) f
  simp only [run_look_bind, run_demand_bind, run_write_bind, run_pure, check_bind]
  cases (g.registration? root).isSome <;> cases g.isConnected root <;> rfl

theorem run_disconnect (key : ConnectionKey) (f : Facility) : (disconnect key).run f = Facility.disconnect key f := by
  refine run_meetPlan_bind (fun g => ?_) f
  simp only [run_look_bind, run_demand_bind, run_write_bind, run_write, check_bind]
  cases hthere : g.connections.contains key with
  | true => rfl
  | false =>
    rw [Table.erase_of_not_contains hthere]
    rfl

theorem run_create (parent : Path) (new : NewPlaceholder) (f : Facility) :
    (create parent new).run f = Facility.create parent new f := by
  refine run_meetPlan_bind (fun g => ?_) f
  simp only [run_look_bind, run_demandSome_bind, run_demand_bind, run_write, check_bind]
  cases g.coveringRoot? parent with
  | none => rfl
  | some root =>
    dsimp only
    cases g.holdsChildren root parent <;> cases new.identity.fits <;>
      cases (g.placeholder? (parent.join new.name)).isNone <;> rfl

theorem run_update (path : Path) (metadata : Metadata) (identity : FileIdentity) (f : Facility) :
    (update path metadata identity).run f = Facility.update path metadata identity f := by
  refine run_meetPlan_bind (fun g => ?_) f
  simp only [run_look_bind, run_demandSome_bind, alterPlaceholder, run_write_bind, run_write, changePlaceholder]
  cases hp : g.placeholder? path with
  | none => rfl
  | some p =>
    simp only [Table.modify_of_get? hp, Table.modify_insert]
    rfl

theorem run_dehydrate (path : Path) (f : Facility) : (dehydrate path).run f = Facility.dehydrate path f := by
  refine run_meetPlan_bind (fun g => ?_) f
  simp only [run_look_bind, run_demandSome_bind, run_demand_bind, alterPlaceholder, run_write, changePlaceholder]
  cases hp : g.placeholder? path with
  | none => rfl
  | some p =>
    simp only [Table.modify_of_get? hp, check_bind]
    cases p.isDirectory <;> cases p.inUse <;> rfl

theorem run_failTransfer {k : TransferKey} {t : Transfer} (ht : f.transfers.get? k = some t) (status : Status) :
    (failTransfer k status).run f = (.ok (), { f with transfers := f.transfers.insert k (t.fail status) }) := by
  simp only [failTransfer, alterTransfer, run_write_bind, run_write, Table.modify_of_get? ht, Table.modify_insert]
  rfl

theorem run_receive {k : TransferKey} {t : Transfer} (ht : f.transfers.get? k = some t) (offset : Nat) (data : Bytes) :
    (receive k t.path offset data).run f = (.ok (), f.store k (t.receive offset data)) := by
  simp only [receive, alterTransfer, run_write_bind, run_look_bind, Table.modify_of_get? ht, Table.modify_insert,
    Table.get?_insert_self, Option.any_some]
  -- Both writes together have made `t.receive offset data` of the transfer.
  change (if (t.receive offset data).isComplete = true then _ else _ : Program Unit).run _ = _
  rw [store]
  by_cases hc : (t.receive offset data).isComplete = true
  · rw [if_pos hc, if_pos hc]
    simp only [completeTransfer, alterTransfer, alterPlaceholder, run_write_bind, run_look_bind, run_write,
      Table.modify_insert, Table.get?_insert_self]
    rfl
  · rw [if_neg hc, if_neg hc]
    rfl

theorem run_accept (op : TransferOperation) (g : Facility) :
    (accept op).run g = settle g (acceptOperation op g) := by
  simp only [accept, acceptOperation, run_look_bind, run_demand_bind, run_demandSome_bind, check_bind]
  cases g.connections.contains op.connection with
  | false => rfl
  | true =>
    cases ht : (g.transfers.get? op.transfer).filter fun t => t.connection = op.connection ∧ t.isPending with
    | none => rfl
    | some t =>
      have hget : g.transfers.get? op.transfer = some t := (Option.filter_eq_some_iff.1 ht).1
      simp only [if_true]
      cases op.status.isSuccess with
      | false => exact run_failTransfer hget op.status
      | true =>
        simp only [Bool.not_true, Bool.false_eq_true, if_false, run_demandSome_bind, run_demand_bind, receiveSegment,
          check_bind]
        cases op.buffer with
        | none => rfl
        | some data =>
          dsimp only
          rw [run_receive hget]
          cases (0 ≤ op.offset && op.length = data.length : Bool) <;>
            cases decide (op.offset.toNat + data.length ≤ t.length) <;> try rfl
          simp only [store, if_true, pure, Except.pure, bind, Except.bind]
          cases (t.receive op.offset.toNat data).isComplete <;> rfl

theorem run_execute (op : TransferOperation) (f : Facility) : (execute op).run f = Facility.execute op f := by
  have h : (do meetPlan .transfer; accept op : Program Unit).run f = attempt .transfer (acceptOperation op) f :=
    run_meetPlan_bind (fun g => run_accept op g) f
  rw [Facility.execute, ← h]
  rfl

end Program

end Facility

end OnDemand
