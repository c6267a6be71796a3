import OnDemand.Facility.Reading
import OnDemand.Proofs.Table

/-!
# What the calls on the facility do

A call that is refused changes nothing but the plan of refusals. A call is accepted exactly if no refusal is planned
and its conditions hold; each lemma names them together with the next state.
-/

namespace OnDemand.Facility

variable {f g : Facility}

/-! ## Attempts -/

theorem check_bind {α : Type} (condition : Bool) (s : Status) (rest : Unit → Except Status α) :
    (check condition s >>= rest) = if condition = true then rest () else .error s := by
  cases condition <;> rfl

theorem dropFault_eq_self {op : Operation} (h : f.faults op = none) : f.dropFault op = f := by
  have hfaults : (fun o => if o = op then none else f.faults o) = f.faults := by
    funext o
    split
    · rename_i ho
      rw [ho, h]
    · rfl
  simp only [dropFault, hfaults]

theorem attempt_ok {α : Type} {op : Operation} {body : Facility → Except Status (α × Facility)} {a : α} :
    attempt op body f = (.ok a, g) ↔ f.faults op = none ∧ body f = .ok (a, g) := by
  cases hf : f.faults op with
  | some status =>
    simp only [attempt, hf, reduceCtorEq, false_and, iff_false]
    exact fun h => nomatch (Prod.mk.inj h).1
  | none =>
    simp only [attempt, hf, dropFault_eq_self hf, true_and]
    cases hb : body f with
    | error status =>
      simp only [reduceCtorEq, iff_false]
      exact fun h => nomatch (Prod.mk.inj h).1
    | ok r =>
      simp only [Except.ok.injEq]
      constructor
      · intro h
        obtain ⟨ha, hg⟩ := Prod.mk.inj h
        exact Prod.ext (Except.ok.inj ha) hg
      · rintro rfl
        rfl

theorem attempt_error {α : Type} {op : Operation} {body : Facility → Except Status (α × Facility)} {s : Status}
    (h : attempt op body f = (.error s, g)) : g = f.dropFault op := by
  cases hf : f.faults op with
  | some status =>
    simp only [attempt, hf] at h
    exact (Prod.mk.inj h).2.symm
  | none =>
    simp only [attempt, hf] at h
    cases hb : body (f.dropFault op) with
    | error status =>
      simp only [hb] at h
      exact (Prod.mk.inj h).2.symm
    | ok r =>
      simp only [hb] at h
      exact nomatch (Prod.mk.inj h).1

/-- What an attempt comes to: a refusal, or what its body makes of the state. -/
theorem attempt_cases {α : Type} (op : Operation) (body : Facility → Except Status (α × Facility)) (f : Facility) :
    (∃ s, attempt op body f = (.error s, f.dropFault op)) ∨
      ∃ a g, f.faults op = none ∧ body f = .ok (a, g) ∧ attempt op body f = (.ok a, g) := by
  cases h : attempt op body f with
  | mk answer g =>
    cases answer with
    | error s => exact .inl ⟨s, by rw [attempt_error h]⟩
    | ok a =>
      obtain ⟨hf, hb⟩ := attempt_ok.1 h
      exact .inr ⟨a, g, hf, hb, rfl⟩

/-! ## Roots and connections -/

theorem register_ok {root : Path} {registration : Registration} :
    register root registration f = (.ok (), g) ↔
      f.faults .register = none ∧
        g = { f with registrations :=
          f.registrations.insert root.route ⟨((f.registration? root).map (·.path)).getD root, registration⟩ } := by
  rw [register, attempt_ok]
  simp [@eq_comm _ g]

theorem unregister_ok {root : Path} :
    unregister root f = (.ok (), g) ↔
      f.faults .unregister = none ∧ (f.registration? root).isSome = true ∧ f.isConnected root = false ∧
        g = { f with
          registrations := f.registrations.erase root.route
          placeholders := f.placeholders.filter fun route _ => !root.route.isPrefixOf route } := by
  rw [unregister, attempt_ok]
  simp only [check_bind]
  cases (f.registration? root).isSome <;> cases f.isConnected root <;> simp [pure, Except.pure, @eq_comm _ g]

theorem connect_ok {root : Path} {handler : Handler} {key : ConnectionKey} :
    connect root handler f = (.ok key, g) ↔
      f.faults .connect = none ∧ (f.registration? root).isSome = true ∧ f.isConnected root = false ∧
        key = ⟨f.lastConnection + 1⟩ ∧
        g = { f with
          lastConnection := f.lastConnection + 1
          connections := f.connections.insert ⟨f.lastConnection + 1⟩ ⟨root, handler⟩ } := by
  rw [connect, attempt_ok]
  simp only [check_bind]
  cases (f.registration? root).isSome <;> cases f.isConnected root <;>
    simp [pure, Except.pure, @eq_comm _ g, @eq_comm _ key]

/-- A transfer as a disconnection of `key` leaves it. -/
def closed (key : ConnectionKey) (t : Transfer) : Transfer :=
  if t.connection = key ∧ t.isPending then t.fail .providerNotRunning else t

theorem disconnect_ok {key : ConnectionKey} :
    disconnect key f = (.ok (), g) ↔
      f.faults .disconnect = none ∧ f.connections.contains key = true ∧
        g = { f with
          connections := f.connections.erase key
          transfers := f.transfers.mapValues fun _ t => closed key t } := by
  rw [disconnect, attempt_ok]
  simp only [check_bind]
  cases f.connections.contains key <;> simp [pure, Except.pure, @eq_comm _ g, closed]

/-! ## Placeholders -/

theorem create_ok {parent : Path} {new : NewPlaceholder} :
    create parent new f = (.ok (), g) ↔
      f.faults .create = none ∧ (∃ root, f.coveringRoot? parent = some root ∧ f.holdsChildren root parent = true) ∧
        new.identity.fits = true ∧ f.placeholder? (parent.join new.name) = none ∧
        g = { f with placeholders :=
          f.placeholders.insert (parent.join new.name).route (.create (parent.join new.name) new) } := by
  rw [create, attempt_ok]
  simp only [check_bind]
  cases f.coveringRoot? parent with
  | none => simp
  | some root =>
    cases hc : f.holdsChildren root parent <;> cases new.identity.fits <;>
      cases f.placeholder? (parent.join new.name) <;> simp [pure, Except.pure, hc, @eq_comm _ g]

theorem changePlaceholder_ok {path : Path} {change : Placeholder → Except Status Placeholder} :
    changePlaceholder path change f = .ok ((), g) ↔
      ∃ p q, f.placeholder? path = some p ∧ change p = .ok q ∧
        g = { f with placeholders := f.placeholders.insert path.route q } := by
  unfold changePlaceholder
  cases f.placeholder? path with
  | none => simp
  | some p => cases hq : change p <;> simp [bind, Except.bind, pure, Except.pure, hq, @eq_comm _ g]

theorem update_ok {path : Path} {metadata : Metadata} {identity : FileIdentity} :
    update path metadata identity f = (.ok (), g) ↔
      f.faults .update = none ∧ ∃ p, f.placeholder? path = some p ∧
        g = { f with placeholders := f.placeholders.insert path.route (p.update metadata identity) } := by
  rw [update, attempt_ok, changePlaceholder_ok]
  simp

theorem dehydrate_ok {path : Path} :
    dehydrate path f = (.ok (), g) ↔
      f.faults .dehydrate = none ∧ ∃ p, f.placeholder? path = some p ∧ p.isDirectory = false ∧ p.inUse = false ∧
        g = { f with placeholders := f.placeholders.insert path.route { p with content := none } } := by
  rw [dehydrate, attempt_ok, changePlaceholder_ok]
  simp only [check_bind]
  constructor
  · rintro ⟨hf, p, q, hp, hq, rfl⟩
    cases hd : p.isDirectory <;> cases hu : p.inUse <;> simp_all [pure, Except.pure]
  · rintro ⟨hf, p, hp, hd, hu, rfl⟩
    exact ⟨hf, p, _, hp, by simp [hd, hu, pure, Except.pure], rfl⟩

theorem putContent_ok {path : Path} {data : Bytes} :
    f.putContent path data = .ok g ↔
      ∃ p, f.placeholder? path = some p ∧ p.isDirectory = false ∧
        g = { f with placeholders := f.placeholders.insert path.route { p with content := some data } } := by
  unfold putContent changePlaceholder
  cases f.placeholder? path with
  | none => simp [Functor.map, Except.map]
  | some p =>
    simp only [check_bind]
    cases hd : p.isDirectory <;> simp [Functor.map, Except.map, pure, Except.pure, bind, Except.bind, hd, @eq_comm _ g]

/-! ## Transfer operations -/

/-- The state with `op` in the log. -/
def logged (op : TransferOperation) (accepted : Bool) (f : Facility) : Facility :=
  { f with log := f.log ++ [⟨op.connection, op.transfer, op.status, op.offset, op.length, accepted⟩] }

/-- `t` takes operations like `op`: it is pending, on the connection that `op` names, and that is open. -/
structure Awaits (f : Facility) (op : TransferOperation) (t : Transfer) : Prop where
  isOpen : f.connections.contains op.connection = true
  transfer : f.transfers.get? op.transfer = some t
  connection : t.connection = op.connection
  pending : t.isPending = true

/-- `op` carries `data` for positions within `t`. -/
structure Carries (op : TransferOperation) (data : Bytes) (t : Transfer) : Prop where
  success : op.status.isSuccess = true
  buffer : op.buffer = some data
  offset : 0 ≤ op.offset
  length : op.length = data.length
  fits : op.offset.toNat + data.length ≤ t.length

/-- The state with a transfer as a new segment leaves it; a transfer that has the whole gives it to its placeholder. -/
def store (key : TransferKey) (t : Transfer) (f : Facility) : Facility :=
  if t.isComplete then
    { f with transfers := f.transfers.insert key t.complete, placeholders := commit f.placeholders t }
  else { f with transfers := f.transfers.insert key t }

@[simp] theorem store_transfers {key : TransferKey} {t : Transfer} :
    (f.store key t).transfers = f.transfers.insert key (if t.isComplete then t.complete else t) := by
  unfold store
  split <;> rfl

@[simp] theorem store_placeholders {key : TransferKey} {t : Transfer} :
    (f.store key t).placeholders = if t.isComplete then commit f.placeholders t else f.placeholders := by
  unfold store
  split <;> rfl

@[simp] theorem store_lastTransfer {key : TransferKey} {t : Transfer} :
    (f.store key t).lastTransfer = f.lastTransfer := by
  unfold store
  split <;> rfl

@[simp] theorem store_connections {key : TransferKey} {t : Transfer} :
    (f.store key t).connections = f.connections := by
  unfold store
  split <;> rfl

@[simp] theorem store_faults {key : TransferKey} {t : Transfer} : (f.store key t).faults = f.faults := by
  unfold store
  split <;> rfl

theorem receiveSegment_ok {t u : Transfer} {op : TransferOperation} :
    receiveSegment t op = .ok u ↔
      ∃ data, op.buffer = some data ∧ 0 ≤ op.offset ∧ op.length = data.length ∧
        op.offset.toNat + data.length ≤ t.length ∧ u = t.receive op.offset.toNat data := by
  unfold receiveSegment
  simp only [check_bind]
  cases op.buffer with
  | none => simp
  | some data =>
    by_cases h0 : 0 ≤ op.offset <;> by_cases hl : op.length = data.length <;>
      by_cases hf : op.offset.toNat + data.length ≤ t.length <;>
      simp [pure, Except.pure, h0, hl, hf, @eq_comm _ u]

theorem acceptOperation_ok {op : TransferOperation} :
    acceptOperation op f = .ok ((), g) ↔
      ∃ t, f.Awaits op t ∧
        ((op.status.isSuccess = false ∧
            g = { f with transfers := f.transfers.insert op.transfer (t.fail op.status) }) ∨
          ∃ data, Carries op data t ∧ g = f.store op.transfer (t.receive op.offset.toNat data)) := by
  unfold acceptOperation
  simp only [check_bind]
  constructor
  · intro h
    split at h
    · rename_i hopen
      split at h
      · rename_i t ht
        obtain ⟨ht, hp⟩ := Option.filter_eq_some_iff.1 ht
        simp only [decide_eq_true_eq] at hp
        refine ⟨t, ⟨hopen, ht, hp.1, hp.2⟩, ?_⟩
        split at h
        · rename_i hs
          obtain ⟨-, rfl⟩ := Prod.mk.inj (Except.ok.inj h)
          exact .inl ⟨by simpa using hs, rfl⟩
        · rename_i hs
          cases hr : receiveSegment t op with
          | error s => simp [hr, bind, Except.bind] at h
          | ok u =>
            obtain ⟨data, hb, h0, hl, hf, rfl⟩ := receiveSegment_ok.1 hr
            refine .inr ⟨data, ⟨by simpa using hs, hb, h0, hl, hf⟩, ?_⟩
            simp only [hr, bind, Except.bind] at h
            unfold store
            split at h
            · rename_i hc
              rw [if_pos hc]
              exact (Prod.mk.inj (Except.ok.inj h)).2.symm
            · rename_i hc
              rw [if_neg hc]
              exact (Prod.mk.inj (Except.ok.inj h)).2.symm
      · simp at h
    · simp at h
  · rintro ⟨t, ⟨hopen, ht, hconn, hp⟩, h⟩
    have hfilter : (f.transfers.get? op.transfer).filter (fun t => t.connection = op.connection ∧ t.isPending) =
        some t := Option.filter_eq_some_iff.2 ⟨ht, by simp [hconn, hp]⟩
    rw [if_pos hopen, hfilter]
    rcases h with ⟨hs, rfl⟩ | ⟨data, hcarries, rfl⟩
    · simp [hs, pure, Except.pure]
    · have hr := receiveSegment_ok.2 ⟨data, hcarries.buffer, hcarries.offset, hcarries.length, hcarries.fits, rfl⟩
      simp only [hcarries.success, Bool.not_true, Bool.false_eq_true, if_false, hr, bind, Except.bind, store]
      by_cases hc : (t.receive op.offset.toNat data).isComplete = true
      · simp only [if_pos hc, pure, Except.pure]
      · simp only [if_neg hc, pure, Except.pure]

theorem execute_ok {op : TransferOperation} :
    execute op f = (.ok (), g) ↔
      f.faults .transfer = none ∧ ∃ h, acceptOperation op f = .ok ((), h) ∧ g = h.logged op true := by
  unfold execute
  rcases attempt_cases .transfer (acceptOperation op) f with ⟨s, h⟩ | ⟨a, h, hf, hb, h'⟩
  · rw [h]
    constructor
    · intro hg
      exact nomatch (Prod.mk.inj hg).1
    · rintro ⟨hf, k, hk, -⟩
      rw [attempt_ok.2 ⟨hf, hk⟩] at h
      exact nomatch (Prod.mk.inj h).1
  · rw [h']
    constructor
    · intro hg
      exact ⟨hf, h, hb, (Prod.mk.inj hg).2.symm⟩
    · rintro ⟨-, k, hk, rfl⟩
      rw [hb] at hk
      obtain ⟨-, rfl⟩ := Prod.mk.inj (Except.ok.inj hk)
      rfl

theorem execute_error {op : TransferOperation} {s : Status} (h : execute op f = (.error s, g)) :
    g = (f.dropFault .transfer).logged op false := by
  unfold execute at h
  rcases attempt_cases .transfer (acceptOperation op) f with ⟨s', h'⟩ | ⟨a, k, hf, hb, h'⟩
  · rw [h'] at h
    exact (Prod.mk.inj h).2.symm
  · rw [h'] at h
    exact nomatch (Prod.mk.inj h).1

theorem execute_failure {op : TransferOperation} {t : Transfer} (hf : f.faults .transfer = none) (ht : f.Awaits op t)
    (hs : op.status.isSuccess = false) :
    execute op f =
      (.ok (), logged op true { f with transfers := f.transfers.insert op.transfer (t.fail op.status) }) :=
  execute_ok.2 ⟨hf, _, acceptOperation_ok.2 ⟨t, ht, .inl ⟨hs, rfl⟩⟩, rfl⟩

theorem execute_data {op : TransferOperation} {t : Transfer} {data : Bytes} (hf : f.faults .transfer = none)
    (ht : f.Awaits op t) (hd : Carries op data t) :
    execute op f = (.ok (), (f.store op.transfer (t.receive op.offset.toNat data)).logged op true) :=
  execute_ok.2 ⟨hf, _, acceptOperation_ok.2 ⟨t, ht, .inr ⟨data, hd, rfl⟩⟩, rfl⟩

/-- A transfer operation is refused, or ends the transfer that awaits it, or brings a segment to it. -/
theorem execute_cases (op : TransferOperation) (f : Facility) :
    (∃ s, execute op f = (.error s, (f.dropFault .transfer).logged op false)) ∨
      ∃ t, f.faults .transfer = none ∧ f.Awaits op t ∧
        ((op.status.isSuccess = false ∧ execute op f =
            (.ok (), logged op true { f with transfers := f.transfers.insert op.transfer (t.fail op.status) })) ∨
          ∃ data, Carries op data t ∧
            execute op f = (.ok (), (f.store op.transfer (t.receive op.offset.toNat data)).logged op true)) := by
  cases h : execute op f with
  | mk answer g =>
    cases answer with
    | error s =>
      obtain rfl := execute_error h
      exact .inl ⟨s, rfl⟩
    | ok a =>
      obtain ⟨hf, k, hk, rfl⟩ := execute_ok.1 h
      obtain ⟨t, hawaits, hk⟩ := acceptOperation_ok.1 hk
      rcases hk with ⟨hs, rfl⟩ | ⟨data, hcarries, rfl⟩
      · exact .inr ⟨t, hf, hawaits, .inl ⟨hs, rfl⟩⟩
      · exact .inr ⟨t, hf, hawaits, .inr ⟨data, hcarries, rfl⟩⟩

/-! ## Opening a transfer -/

/-- The state in which the next transfer key is open for `length` bytes of `path`. -/
def opened (connection : ConnectionKey) (path : Path) (length : Nat) (f : Facility) : Facility :=
  { f with
    lastTransfer := f.lastTransfer + 1
    transfers := f.transfers.insert ⟨f.lastTransfer + 1⟩ (.start connection path length) }

theorem choose?_eq_none {α : Type} {candidates : List α} : f.choose? candidates = none ↔ candidates = [] := by
  rw [choose?, List.getElem?_eq_none_iff]
  cases candidates with
  | nil => simp
  | cons a rest => simpa using Nat.mod_lt f.pick (Nat.succ_pos rest.length)

theorem mem_of_choose? {α : Type} {candidates : List α} {a : α} (h : f.choose? candidates = some a) : a ∈ candidates :=
  List.mem_of_getElem? h

/-- Every candidate may be the one that is met first. -/
theorem exists_choose? {α : Type} {candidates : List α} {a : α} (h : a ∈ candidates) (f : Facility) :
    ∃ pick, (f.rearrange pick).choose? candidates = some a := by
  obtain ⟨i, hi, rfl⟩ := List.getElem_of_mem h
  refine ⟨i, ?_⟩
  rw [choose?, rearrange, Nat.mod_eq_of_lt hi, List.getElem?_eq_getElem hi]

theorem beginTransfer_ok {path : Path} {begun : BegunTransfer} :
    f.beginTransfer path = .ok (begun, g) ↔
      ∃ p e, f.placeholder? path = some p ∧ p.isDirectory = false ∧ f.coveringConnection? path = some e ∧
        begun = ⟨e.1, ⟨f.lastTransfer + 1⟩, p.metadata.byteSize⟩ ∧ g = f.opened e.1 path p.metadata.byteSize := by
  unfold beginTransfer
  simp only [check_bind]
  cases f.placeholder? path with
  | none => simp
  | some p =>
    cases hd : p.isDirectory <;> cases f.coveringConnection? path <;>
      simp [pure, Except.pure, hd, issueTransfer, opened, @eq_comm _ g, @eq_comm _ begun]

/-- A read of `path` opens a transfer on the connection `e`: `p` is a file without content, for which none is pending. -/
structure Opens (f : Facility) (path : Path) (p : Placeholder) (e : ConnectionKey × Connection) : Prop where
  placeholder : f.placeholder? path = some p
  file : p.isDirectory = false
  empty : p.content = none
  idle : f.pendingFor? path = none
  covered : f.coveringConnection? path = some e

theorem pendingFor?_eq_none {path : Path} :
    f.pendingFor? path = none ↔
      ∀ k t, f.transfers.get? k = some t → ¬(t.path.same path = true ∧ t.isPending = true) := by
  simp only [pendingFor?, choose?_eq_none, List.filter_eq_nil_iff, Prod.forall, Table.mem_toList, Bool.and_eq_true]

/-- Every pending transfer of a path may be the one that a read of it joins. -/
theorem exists_pendingFor? {path : Path} {k : TransferKey} {t : Transfer} (ht : f.transfers.get? k = some t)
    (hpath : t.path.same path = true) (hpending : t.isPending = true) :
    ∃ pick, (f.rearrange pick).pendingFor? path = some (k, t) :=
  exists_choose? (List.mem_filter.2 ⟨Table.mem_toList.2 ht, by simp [hpath, hpending]⟩) f

theorem startRead_opens {path : Path} {p : Placeholder} {e : ConnectionKey × Connection} (h : f.Opens path p e)
    (offset length : Nat) :
    f.startRead path offset length =
      (.opened ⟨path, offset, length, e.1, ⟨f.lastTransfer + 1⟩, p.identity, p.metadata.byteSize⟩
        ⟨e.2.handler,
          ⟨e.1, ⟨f.lastTransfer + 1⟩, p.identity.bytes, 0, p.metadata.byteSize, p.metadata.byteSize, some path.text⟩⟩,
        f.opened e.1 path p.metadata.byteSize) := by
  simp [startRead, h.placeholder, h.file, h.empty, h.idle, h.covered, issueTransfer, opened]

/-- A read changes the state only where it opens a transfer. -/
theorem startRead_cases (path : Path) (offset length : Nat) (f : Facility) :
    ((f.startRead path offset length).2 = f ∧ ∀ reader fetch, (f.startRead path offset length).1 ≠ .opened reader fetch) ∨
      ∃ p e, f.Opens path p e := by
  unfold startRead
  cases hp : f.placeholder? path with
  | none => exact .inl (by simp)
  | some p =>
    cases hd : p.isDirectory with
    | true => exact .inl (by simp [hd])
    | false =>
      cases hcontent : p.content with
      | some content => exact .inl (by simp [hd, hcontent])
      | none =>
        cases hpending : f.pendingFor? path with
        | some e => exact .inl (by simp [hd, hcontent])
        | none =>
          cases hc : f.coveringConnection? path with
          | none => exact .inl (by simp [hd, hcontent])
          | some e => exact .inr ⟨p, e, hp, hd, hcontent, hpending, hc⟩

/-- A read returns bytes at once only if they are there. -/
theorem startRead_ok {path : Path} {offset length : Nat} {bytes : Bytes}
    (h : f.startRead path offset length = (.returned (.ok bytes), g)) :
    ∃ p content, f.placeholder? path = some p ∧ p.content = some content ∧ bytes = content.window offset length := by
  unfold startRead at h
  cases hp : f.placeholder? path with
  | none => simp [hp] at h
  | some p =>
    cases hcontent : p.content with
    | some content =>
      cases hd : p.isDirectory <;> simp [hp, hd, hcontent] at h
      exact ⟨p, content, rfl, hcontent, h.1.symm⟩
    | none =>
      cases hd : p.isDirectory <;> cases hpending : f.pendingFor? path <;> cases hc : f.coveringConnection? path <;>
        simp [hp, hd, hcontent, hpending, hc] at h

/-- A read that has waited returns bytes only if its transfer has completed and they are there. -/
theorem readResult?_ok {r : Reader} {bytes : Bytes} (h : f.readResult? r = some (.ok bytes)) :
    (∃ t, f.transfers.get? r.transfer = some t ∧ t.phase = .completed) ∧
      ∃ p content, f.placeholder? r.path = some p ∧ p.content = some content ∧
        bytes = content.window r.offset r.length := by
  unfold readResult? at h
  split at h
  · cases h
  · rename_i t ht
    split at h
    · cases h
    · cases h
    · rename_i hphase
      refine ⟨⟨t, ht, hphase⟩, ?_⟩
      split at h
      · rename_i content hcontent
        obtain ⟨p, hp, hcontent⟩ := Option.bind_eq_some_iff.1 hcontent
        exact ⟨p, content, hp, hcontent, (Except.ok.inj (Option.some.inj h)).symm⟩
      · cases h

theorem readResult?_isNone {r : Reader} :
    (f.readResult? r).isNone = true ↔ ∃ t, f.transfers.get? r.transfer = some t ∧ t.isPending = true := by
  unfold readResult?
  cases f.transfers.get? r.transfer with
  | none => simp
  | some t =>
    cases hphase : t.phase with
    | pending => simp [Transfer.isPending, hphase]
    | completed => cases (f.placeholder? r.path).bind (·.content) <;> simp [Transfer.isPending, hphase]
    | failed s => simp [Transfer.isPending, hphase]

end OnDemand.Facility
