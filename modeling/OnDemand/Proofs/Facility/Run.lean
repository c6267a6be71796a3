import OnDemand.Proofs.Facility.Calls
import OnDemand.Proofs.Transfer.Segments

/-!
# Runs of the facility

A move is one call on the facility, or one thing that an application or a test does to it; a run is a list of
moves from the empty facility. Beside the run stand the segments that each transfer has accepted in it.
-/

namespace OnDemand.Facility

inductive Move where
  | register (root : Path) (registration : Registration)
  | unregister (root : Path)
  | connect (root : Path) (handler : Handler)
  | disconnect (key : ConnectionKey)
  | create (parent : Path) (new : NewPlaceholder)
  | update (path : Path) (metadata : Metadata) (identity : FileIdentity)
  | dehydrate (path : Path)
  | execute (op : TransferOperation)
  | planFault (op : Operation) (status : Status)
  | markInUse (path : Path) (inUse : Bool)
  | fill (path : Path) (data : Bytes)
  | begin (path : Path)
  | read (path : Path) (offset length : Nat)
  /-- A read that has waited long enough gives up, if its transfer is still pending. -/
  | giveUp (reader : Reader)
  /-- The tables put their entries in other places, so that searches may meet other ones first. -/
  | rearrange (pick : Nat)

def next (f : Facility) : Move → Facility
  | .register root registration => (register root registration f).2
  | .unregister root => (unregister root f).2
  | .connect root handler => (connect root handler f).2
  | .disconnect key => (disconnect key f).2
  | .create parent new => (create parent new f).2
  | .update path metadata identity => (update path metadata identity f).2
  | .dehydrate path => (dehydrate path f).2
  | .execute op => (execute op f).2
  | .planFault op status => f.planFault op status
  | .markInUse path inUse => f.markInUse path inUse
  | .fill path data =>
    match f.putContent path data with
    | .ok g => g
    | .error _ => f
  | .begin path =>
    match f.beginTransfer path with
    | .ok (_, g) => g
    | .error _ => f
  | .read path offset length => (f.startRead path offset length).2
  | .giveUp reader => if (f.readResult? reader).isNone then (f.giveUp reader).2 else f
  | .rearrange pick => f.rearrange pick

/-- The state after a run. -/
def after (ms : List Move) : Facility := ms.foldl next empty

/-- The segment that the transfer `k` accepts in one move. -/
def taken (k : TransferKey) (f : Facility) : Move → List Segment
  | .execute op =>
    if op.transfer = k ∧ op.status.isSuccess = true ∧ (execute op f).1.isOk = true then
      [⟨op.offset.toNat, op.buffer.getD []⟩]
    else []
  | _ => []

def segmentsFrom (k : TransferKey) (f : Facility) : List Move → List Segment
  | [] => []
  | m :: ms => f.taken k m ++ segmentsFrom k (f.next m) ms

/-- The segments that the transfer `k` has accepted in a run, in this order. -/
def segments (k : TransferKey) (ms : List Move) : List Segment := segmentsFrom k empty ms

variable {f g : Facility} {k : TransferKey} {m : Move}

@[simp] theorem after_append_singleton (ms : List Move) (m : Move) : after (ms ++ [m]) = (after ms).next m := by
  simp [after]

theorem segmentsFrom_append_singleton (k : TransferKey) (f : Facility) (ms : List Move) (m : Move) :
    segmentsFrom k f (ms ++ [m]) = segmentsFrom k f ms ++ (ms.foldl next f).taken k m := by
  induction ms generalizing f with
  | nil => simp [segmentsFrom]
  | cons n ms ih => simp [segmentsFrom, ih]

@[simp] theorem segments_append_singleton (k : TransferKey) (ms : List Move) (m : Move) :
    segments k (ms ++ [m]) = segments k ms ++ (after ms).taken k m :=
  segmentsFrom_append_singleton k empty ms m

/-! ## What one move does -/

/-- What the move `m` can make of the state `f`. -/
inductive Next (f : Facility) (m : Move) : Facility → Prop where
  /-- Transfers and placeholders stay as they are. -/
  | quiet (registrations : Table Route RegisteredRoot) (connections : Table ConnectionKey Connection)
      (faults : Operation → Option Status) (log : List LoggedOperation) (lastConnection : Int) (pick : Nat)
      (hs : ∀ k, f.taken k m = []) :
      Next f m { f with registrations, connections, faults, log, lastConnection, pick }
  | unregistered (root : Path) (hm : m = .unregister root) :
      Next f m { f with
        registrations := f.registrations.erase root.route
        placeholders := f.placeholders.filter fun route _ => !root.route.isPrefixOf route }
  | disconnected (key : ConnectionKey) (hm : m = .disconnect key) (hopen : f.connections.contains key = true) :
      Next f m { f with
        connections := f.connections.erase key
        transfers := f.transfers.mapValues fun _ t => closed key t }
  | created (parent : Path) (new : NewPlaceholder) (hm : m = .create parent new)
      (hnone : f.placeholder? (parent.join new.name) = none) :
      Next f m { f with placeholders :=
        f.placeholders.insert (parent.join new.name).route (.create (parent.join new.name) new) }
  | updated {p : Placeholder} (path : Path) (metadata : Metadata) (identity : FileIdentity)
      (hm : m = .update path metadata identity) (hp : f.placeholder? path = some p) :
      Next f m { f with placeholders := f.placeholders.insert path.route (p.update metadata identity) }
  | evicted {p : Placeholder} (path : Path) (hm : m = .dehydrate path) (hp : f.placeholder? path = some p) :
      Next f m { f with placeholders := f.placeholders.insert path.route { p with content := none } }
  | marked (path : Path) (inUse : Bool) (hm : m = .markInUse path inUse) : Next f m (f.markInUse path inUse)
  | filled {p : Placeholder} (path : Path) (data : Bytes) (hm : m = .fill path data) (hp : f.placeholder? path = some p)
      (hd : p.isDirectory = false) :
      Next f m { f with placeholders := f.placeholders.insert path.route { p with content := some data } }
  | opened {p : Placeholder} {e : ConnectionKey × Connection} (path : Path)
      (hm : m = .begin path ∨ ∃ offset length, m = .read path offset length) (hp : f.placeholder? path = some p)
      (hd : p.isDirectory = false) (hc : f.coveringConnection? path = some e) :
      Next f m (f.opened e.1 path p.metadata.byteSize)
  | gaveUp {t : Transfer} (reader : Reader) (hm : m = .giveUp reader) (ht : f.transfers.get? reader.transfer = some t)
      (hp : t.isPending = true) : Next f m { f with transfers := f.transfers.erase reader.transfer }
  | failed {t : Transfer} (op : TransferOperation) (hm : m = .execute op) (ht : f.Awaits op t)
      (hs : op.status.isSuccess = false) :
      Next f m (logged op true { f with transfers := f.transfers.insert op.transfer (t.fail op.status) })
  | received {t : Transfer} {data : Bytes} (op : TransferOperation) (hm : m = .execute op) (ht : f.Awaits op t)
      (hd : Carries op data t) (hs : f.taken op.transfer m = [⟨op.offset.toNat, data⟩]) :
      Next f m ((f.store op.transfer (t.receive op.offset.toNat data)).logged op true)

theorem next_dropFault (op : Operation) (hs : ∀ k, f.taken k m = []) : Next f m (f.dropFault op) :=
  .quiet _ _ _ _ _ _ hs

theorem next_self (hs : ∀ k, f.taken k m = []) : Next f m f :=
  .quiet _ _ _ _ _ _ hs

theorem next_execute (op : TransferOperation) : Next f (.execute op) (f.next (.execute op)) := by
  rcases execute_cases op f with ⟨s, h⟩ | ⟨t, -, ht, h⟩
  · simp only [next, h]
    exact .quiet _ _ _ _ _ _ fun k => by simp [taken, h, Except.isOk, Except.toBool]
  rcases h with ⟨hs, h⟩ | ⟨data, hd, h⟩
  · simp only [next, h]
    exact .failed op rfl ht hs
  · simp only [next, h]
    exact .received op rfl ht hd (by simp [taken, h, hd.success, hd.buffer, Except.isOk, Except.toBool])

theorem next_spec (f : Facility) (m : Move) : Next f m (f.next m) := by
  cases m with
  | register root registration =>
    cases h : register root registration f with
    | mk answer g =>
      simp only [next, h]
      cases answer with
      | error s => exact attempt_error h ▸ next_dropFault .register fun _ => rfl
      | ok a =>
        obtain ⟨-, rfl⟩ := register_ok.1 h
        exact .quiet _ _ _ _ _ _ fun _ => rfl
  | unregister root =>
    cases h : unregister root f with
    | mk answer g =>
      simp only [next, h]
      cases answer with
      | error s => exact attempt_error h ▸ next_dropFault .unregister fun _ => rfl
      | ok a =>
        obtain ⟨-, -, -, rfl⟩ := unregister_ok.1 h
        exact .unregistered root rfl
  | connect root handler =>
    cases h : connect root handler f with
    | mk answer g =>
      simp only [next, h]
      cases answer with
      | error s => exact attempt_error h ▸ next_dropFault .connect fun _ => rfl
      | ok a =>
        obtain ⟨-, -, -, -, rfl⟩ := connect_ok.1 h
        exact .quiet _ _ _ _ _ _ fun _ => rfl
  | disconnect key =>
    cases h : disconnect key f with
    | mk answer g =>
      simp only [next, h]
      cases answer with
      | error s => exact attempt_error h ▸ next_dropFault .disconnect fun _ => rfl
      | ok a =>
        obtain ⟨-, hopen, rfl⟩ := disconnect_ok.1 h
        exact .disconnected key rfl hopen
  | create parent new =>
    cases h : create parent new f with
    | mk answer g =>
      simp only [next, h]
      cases answer with
      | error s => exact attempt_error h ▸ next_dropFault .create fun _ => rfl
      | ok a =>
        obtain ⟨-, -, -, hnone, rfl⟩ := create_ok.1 h
        exact .created parent new rfl hnone
  | update path metadata identity =>
    cases h : update path metadata identity f with
    | mk answer g =>
      simp only [next, h]
      cases answer with
      | error s => exact attempt_error h ▸ next_dropFault .update fun _ => rfl
      | ok a =>
        obtain ⟨-, p, hp, rfl⟩ := update_ok.1 h
        exact .updated path metadata identity rfl hp
  | dehydrate path =>
    cases h : dehydrate path f with
    | mk answer g =>
      simp only [next, h]
      cases answer with
      | error s => exact attempt_error h ▸ next_dropFault .dehydrate fun _ => rfl
      | ok a =>
        obtain ⟨-, p, hp, -, -, rfl⟩ := dehydrate_ok.1 h
        exact .evicted path rfl hp
  | execute op => exact next_execute op
  | planFault op status => exact .quiet _ _ _ _ _ _ fun _ => rfl
  | markInUse path inUse => exact .marked path inUse rfl
  | fill path data =>
    cases h : f.putContent path data with
    | error s =>
      simp only [next, h]
      exact next_self fun _ => rfl
    | ok g =>
      simp only [next, h]
      obtain ⟨p, hp, hd, rfl⟩ := putContent_ok.1 h
      exact .filled path data rfl hp hd
  | begin path =>
    cases h : f.beginTransfer path with
    | error s =>
      simp only [next, h]
      exact next_self fun _ => rfl
    | ok r =>
      obtain ⟨begun, g⟩ := r
      simp only [next, h]
      obtain ⟨p, e, hp, hd, hc, -, rfl⟩ := beginTransfer_ok.1 h
      exact .opened path (.inl rfl) hp hd hc
  | read path offset length =>
    rcases startRead_cases path offset length f with ⟨h, -⟩ | ⟨p, e, h⟩
    · simp only [next, h]
      exact next_self fun _ => rfl
    · simp only [next, startRead_opens h]
      exact .opened path (.inr ⟨offset, length, rfl⟩) h.placeholder h.file h.covered
  | giveUp reader =>
    by_cases hr : (f.readResult? reader).isNone = true
    · obtain ⟨t, ht, hp⟩ := readResult?_isNone.1 hr
      simp only [next, if_pos hr, giveUp]
      exact .gaveUp reader rfl ht hp
    · simp only [next, if_neg hr]
      exact next_self fun _ => rfl
  | rearrange pick => exact .quiet _ _ _ _ _ _ fun _ => rfl

theorem Next.lastTransfer_le (h : Next f m g) : f.lastTransfer ≤ g.lastTransfer := by
  cases h with
  | opened path hm hp hd hc => simp only [Facility.opened]; omega
  | received op hm ht hd hs => simp [logged]
  | _ => exact Int.le_refl _

/-! ## What one move does to a transfer -/

/-- What the move `m` from `f` to `g` makes of the transfer with key `k`. -/
inductive TransferChange (f : Facility) (m : Move) (g : Facility) (k : TransferKey) : Prop where
  | kept (h : g.transfers.get? k = f.transfers.get? k) (hs : f.taken k m = [])
  | opened {p : Placeholder} (connection : ConnectionKey) (path : Path) (hk : k = ⟨f.lastTransfer + 1⟩)
      (hp : f.placeholder? path = some p) (hg : g = f.opened connection path p.metadata.byteSize)
      (hs : f.taken k m = [])
  | failed {t : Transfer} (status : Status) (ht : f.transfers.get? k = some t) (hp : t.isPending = true)
      (h : g.transfers.get? k = some (t.fail status)) (hs : f.taken k m = [])
  | removed {t : Transfer} (ht : f.transfers.get? k = some t) (hp : t.isPending = true)
      (h : g.transfers.get? k = none) (hs : f.taken k m = [])
  | received {t : Transfer} {data : Bytes} (op : TransferOperation) (hm : m = .execute op) (hk : op.transfer = k)
      (ht : f.Awaits op t) (hd : Carries op data t)
      (hg : g = (f.store k (t.receive op.offset.toNat data)).logged op true)
      (hs : f.taken k m = [⟨op.offset.toNat, data⟩])

theorem taken_eq_nil_of_ne {op : TransferOperation} (hk : op.transfer ≠ k) : f.taken k (.execute op) = [] := by
  simp [taken, hk]

theorem Next.transferChange (h : Next f m g) (k : TransferKey) : TransferChange f m g k := by
  cases h with
  | quiet _ _ _ _ _ _ hs => exact .kept rfl (hs k)
  | disconnected key hm =>
    subst hm
    have hget : (f.transfers.mapValues fun _ t => closed key t).get? k = (f.transfers.get? k).map (closed key) :=
      Table.get?_mapValues ..
    cases ht : f.transfers.get? k with
    | none => exact .kept (by rw [hget, ht]; rfl) rfl
    | some t =>
      by_cases hc : t.connection = key ∧ t.isPending
      · exact .failed .providerNotRunning ht hc.2 (by rw [hget, ht]; simp [closed, hc]) rfl
      · exact .kept (by rw [hget, ht]; simp [closed, hc]) rfl
  | opened path hm hp hd hc =>
    have hs : f.taken k m = [] := by
      rcases hm with rfl | ⟨_, _, rfl⟩ <;> rfl
    by_cases hk : k = ⟨f.lastTransfer + 1⟩
    · exact .opened _ path hk hp rfl hs
    · exact .kept (Table.get?_insert_of_ne hk) hs
  | gaveUp reader hm ht hp =>
    subst hm
    by_cases hk : k = reader.transfer
    · subst hk
      exact .removed ht hp Table.get?_erase_self rfl
    · exact .kept (Table.get?_erase_of_ne hk) rfl
  | failed op hm ht hs =>
    subst hm
    by_cases hk : op.transfer = k
    · subst hk
      exact .failed op.status ht.transfer ht.pending Table.get?_insert_self (by simp [taken, hs])
    · exact .kept (Table.get?_insert_of_ne (Ne.symm hk)) (taken_eq_nil_of_ne hk)
  | received op hm ht hd hs =>
    subst hm
    by_cases hk : op.transfer = k
    · subst hk
      exact .received op rfl rfl ht hd rfl hs
    · refine .kept ?_ (taken_eq_nil_of_ne hk)
      simp [logged, Table.get?_insert_of_ne (Ne.symm hk)]
  | _ => subst_vars; exact .kept rfl rfl

/-- No transfer has a key that has not been issued. -/
theorem Next.issued (h : Next f m g) (hissued : ∀ {k t}, f.transfers.get? k = some t → k.value ≤ f.lastTransfer)
    {k : TransferKey} {u : Transfer} (hu : g.transfers.get? k = some u) : k.value ≤ g.lastTransfer := by
  have hle := h.lastTransfer_le
  cases h.transferChange k with
  | kept hk hs =>
    rw [hk] at hu
    exact Int.le_trans (hissued hu) hle
  | opened connection path hk hp hg hs =>
    subst hk hg
    exact Int.le_refl _
  | failed status ht hp hk hs => exact Int.le_trans (hissued ht) hle
  | removed ht hp hk hs => exact Int.le_trans (hissued ht) hle
  | received op hm hk ht hd hg hs =>
    subst hk
    exact Int.le_trans (hissued ht.transfer) hle

end OnDemand.Facility
