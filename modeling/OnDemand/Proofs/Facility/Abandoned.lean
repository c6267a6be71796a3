import OnDemand.Proofs.Facility.Ending

/-!
# Segments of abandoned transfers

A transfer that fails, loses its connection or is given up leaves no trace in any placeholder: the run without the
segments it accepted has the same placeholders.
-/

namespace OnDemand.Facility

variable {f g h : Facility} {k : TransferKey} {m : Move} {ms : List Move}

/-! ## Runs that differ in one pending transfer -/

/-- What there is to a transfer beside the bytes that it has received. -/
def shape (t : Transfer) : Transfer := { t with buffer := [], received := [] }

/-- The states differ at most in the log and in what the transfer `k` has received. -/
def Alike (k : TransferKey) (f g : Facility) : Prop :=
  ∃ transfers log, g = { f with transfers, log } ∧ (∀ j ≠ k, transfers.get? j = f.transfers.get? j) ∧
    (transfers.get? k).map shape = (f.transfers.get? k).map shape

theorem alike_refl (k : TransferKey) (f : Facility) : Alike k f f :=
  ⟨f.transfers, f.log, rfl, fun _ _ => rfl, rfl⟩

theorem Alike.symm (ha : Alike k f g) : Alike k g f := by
  obtain ⟨transfers, log, rfl, hothers, hk⟩ := ha
  exact ⟨f.transfers, f.log, rfl, fun j hj => (hothers j hj).symm, hk.symm⟩

theorem Alike.placeholders (ha : Alike k f g) : g.placeholders = f.placeholders := by
  obtain ⟨transfers, log, rfl, -, -⟩ := ha
  rfl

theorem Alike.transfer {j : TransferKey} {t : Transfer} (ha : Alike k f g) (ht : f.transfers.get? j = some t) :
    ∃ u, g.transfers.get? j = some u ∧ shape u = shape t ∧ (j ≠ k → u = t) := by
  obtain ⟨transfers, log, rfl, hothers, hk⟩ := ha
  by_cases hj : j = k
  · subst hj
    rw [ht] at hk
    obtain ⟨u, hu, hshape⟩ := Option.map_eq_some_iff.1 hk
    exact ⟨u, hu, hshape, fun hne => absurd rfl hne⟩
  · exact ⟨t, (hothers j hj).trans ht, rfl, fun _ => rfl⟩

theorem shape_eq {t u : Transfer} :
    shape u = shape t ↔ u.connection = t.connection ∧ u.path = t.path ∧ u.length = t.length ∧ u.phase = t.phase := by
  simp [shape]

theorem isPending_of_shape {t u : Transfer} (hs : shape u = shape t) : u.isPending = t.isPending := by
  rw [Transfer.isPending, Transfer.isPending, (shape_eq.1 hs).2.2.2]

theorem Alike.dropFault (op : Operation) (ha : Alike k f g) : Alike k (f.dropFault op) (g.dropFault op) := by
  obtain ⟨transfers, log, rfl, hothers, hk⟩ := ha
  exact ⟨transfers, log, rfl, hothers, hk⟩

/-- A call that goes alike where it is accepted goes alike where it is refused. -/
theorem Alike.call {α : Type} {op : Operation} {call : Call Facility α}
    (herror : ∀ {f g : Facility} {s : Status}, call f = (.error s, g) → g = f.dropFault op)
    (hok : ∀ {f g f' : Facility} {a : α}, Alike k f g → call f = (.ok a, f') → ∃ g', call g = (.ok a, g') ∧ Alike k f' g')
    (ha : Alike k f g) : Alike k (call f).2 (call g).2 := by
  cases hf : call f with
  | mk answer f' =>
    cases answer with
    | ok a =>
      obtain ⟨g', hg, ha'⟩ := hok ha hf
      rw [hg]
      exact ha'
    | error s =>
      cases hg : call g with
      | mk answer g' =>
        cases answer with
        | ok a =>
          obtain ⟨f'', hf', -⟩ := hok ha.symm hg
          cases (Prod.mk.inj (hf.symm.trans hf')).1
        | error s' =>
          rw [herror hf, herror hg]
          exact ha.dropFault op

theorem Alike.register {root : Path} {registration : Registration} (ha : Alike k f g) :
    Alike k (register root registration f).2 (register root registration g).2 := by
  refine Alike.call attempt_error (fun ha h => ?_) ha
  obtain ⟨transfers, log, rfl, hothers, hk⟩ := ha
  obtain ⟨hf, rfl⟩ := register_ok.1 h
  exact ⟨_, register_ok.2 ⟨hf, rfl⟩, transfers, log, rfl, hothers, hk⟩

theorem Alike.unregister {root : Path} (ha : Alike k f g) : Alike k (unregister root f).2 (unregister root g).2 := by
  refine Alike.call attempt_error (fun ha h => ?_) ha
  obtain ⟨transfers, log, rfl, hothers, hk⟩ := ha
  obtain ⟨hf, hr, hc, rfl⟩ := unregister_ok.1 h
  exact ⟨_, unregister_ok.2 ⟨hf, hr, hc, rfl⟩, transfers, log, rfl, hothers, hk⟩

theorem Alike.connect {root : Path} {handler : Handler} (ha : Alike k f g) :
    Alike k (connect root handler f).2 (connect root handler g).2 := by
  refine Alike.call attempt_error (fun ha h => ?_) ha
  obtain ⟨transfers, log, rfl, hothers, hk⟩ := ha
  obtain ⟨hf, hr, hc, rfl, rfl⟩ := connect_ok.1 h
  exact ⟨_, connect_ok.2 ⟨hf, hr, hc, rfl, rfl⟩, transfers, log, rfl, hothers, hk⟩

theorem Alike.create {parent : Path} {new : NewPlaceholder} (ha : Alike k f g) :
    Alike k (create parent new f).2 (create parent new g).2 := by
  refine Alike.call attempt_error (fun ha h => ?_) ha
  obtain ⟨transfers, log, rfl, hothers, hk⟩ := ha
  obtain ⟨hf, hroot, hfits, hnone, rfl⟩ := create_ok.1 h
  exact ⟨_, create_ok.2 ⟨hf, hroot, hfits, hnone, rfl⟩, transfers, log, rfl, hothers, hk⟩

theorem Alike.update {path : Path} {metadata : Metadata} {identity : FileIdentity} (ha : Alike k f g) :
    Alike k (update path metadata identity f).2 (update path metadata identity g).2 := by
  refine Alike.call attempt_error (fun ha h => ?_) ha
  obtain ⟨transfers, log, rfl, hothers, hk⟩ := ha
  obtain ⟨hf, p, hp, rfl⟩ := update_ok.1 h
  exact ⟨_, update_ok.2 ⟨hf, p, hp, rfl⟩, transfers, log, rfl, hothers, hk⟩

theorem Alike.dehydrate {path : Path} (ha : Alike k f g) : Alike k (dehydrate path f).2 (dehydrate path g).2 := by
  refine Alike.call attempt_error (fun ha h => ?_) ha
  obtain ⟨transfers, log, rfl, hothers, hk⟩ := ha
  obtain ⟨hf, p, hp, hd, hu, rfl⟩ := dehydrate_ok.1 h
  exact ⟨_, dehydrate_ok.2 ⟨hf, p, hp, hd, hu, rfl⟩, transfers, log, rfl, hothers, hk⟩

theorem shape_closed (key : ConnectionKey) (t : Transfer) : shape (closed key t) = closed key (shape t) := by
  by_cases h : t.connection = key ∧ t.isPending
  · have h' : (shape t).connection = key ∧ (shape t).isPending := h
    rw [closed, closed, if_pos h, if_pos h']
    rfl
  · have h' : ¬((shape t).connection = key ∧ (shape t).isPending) := h
    rw [closed, closed, if_neg h, if_neg h']

theorem Alike.disconnect {key : ConnectionKey} (ha : Alike k f g) :
    Alike k (disconnect key f).2 (disconnect key g).2 := by
  refine Alike.call attempt_error (fun ha h => ?_) ha
  obtain ⟨transfers, log, rfl, hothers, hk⟩ := ha
  obtain ⟨hf, hc, rfl⟩ := disconnect_ok.1 h
  refine ⟨_, disconnect_ok.2 ⟨hf, hc, rfl⟩, _, log, rfl, fun j hj => ?_, ?_⟩
  · simp only [Table.get?_mapValues, hothers j hj]
  · have hmap : ∀ o : Option Transfer, (o.map (closed key)).map shape = (o.map shape).map (closed key) := by
      intro o
      cases o with
      | none => rfl
      | some t => simp [shape_closed]
    simp only [Table.get?_mapValues, hmap, hk]

/-! ## Moves of an application -/

theorem Alike.fill {path : Path} {data : Bytes} (ha : Alike k f g) :
    Alike k (f.next (.fill path data)) (g.next (.fill path data)) := by
  -- Whether the file can be filled is a matter of its placeholder alone.
  have hput : ∀ {f g f' : Facility}, Alike k f g → f.putContent path data = .ok f' →
      ∃ g', g.putContent path data = .ok g' ∧ Alike k f' g' := by
    intro f g f' ha h
    obtain ⟨transfers, log, rfl, hothers, hk⟩ := ha
    obtain ⟨p, hp, hd, rfl⟩ := putContent_ok.1 h
    exact ⟨_, putContent_ok.2 ⟨p, hp, hd, rfl⟩, transfers, log, rfl, hothers, hk⟩
  cases hf : f.putContent path data with
  | ok f' =>
    obtain ⟨g', hg, ha'⟩ := hput ha hf
    simpa only [next, hf, hg] using ha'
  | error s =>
    cases hg : g.putContent path data with
    | ok g' =>
      obtain ⟨f', hf', -⟩ := hput ha.symm hg
      rw [hf] at hf'
      cases hf'
    | error s' => simpa only [next, hf, hg] using ha

theorem Alike.opened (connection : ConnectionKey) (path : Path) (length : Nat) (ha : Alike k f g) :
    Alike k (f.opened connection path length) (g.opened connection path length) := by
  obtain ⟨transfers, log, rfl, hothers, hk⟩ := ha
  refine ⟨_, log, rfl, fun j hj => ?_, ?_⟩
  · simp only [Facility.opened, Table.get?_insert, hothers j hj]
  · simp only [Facility.opened, Table.get?_insert]
    split
    · rfl
    · exact hk

theorem Alike.begin {path : Path} (ha : Alike k f g) : Alike k (f.next (.begin path)) (g.next (.begin path)) := by
  have hbegin : ∀ {f g f' : Facility} {begun : BegunTransfer}, Alike k f g → f.beginTransfer path = .ok (begun, f') →
      ∃ g', g.beginTransfer path = .ok (begun, g') ∧ Alike k f' g' := by
    intro f g f' begun ha h
    obtain ⟨p, e, hp, hd, hc, hbegun, rfl⟩ := beginTransfer_ok.1 h
    have hopened := ha.opened e.1 path p.metadata.byteSize
    obtain ⟨transfers, log, rfl, hothers, hk⟩ := ha
    exact ⟨_, beginTransfer_ok.2 ⟨p, e, hp, hd, hc, hbegun, rfl⟩, hopened⟩
  cases hf : f.beginTransfer path with
  | ok r =>
    obtain ⟨g', hg, ha'⟩ := hbegin ha hf
    simpa only [next, hf, hg] using ha'
  | error s =>
    cases hg : g.beginTransfer path with
    | ok r =>
      obtain ⟨f', hf', -⟩ := hbegin ha.symm hg
      rw [hf] at hf'
      cases hf'
    | error s' => simpa only [next, hf, hg] using ha

theorem Alike.opens {path : Path} {p : Placeholder} {e : ConnectionKey × Connection} (ha : Alike k f g)
    (h : f.Opens path p e) : g.Opens path p e := by
  have hidle : g.pendingFor? path = none := by
    refine pendingFor?_eq_none.2 fun j u hu hpending => ?_
    obtain ⟨t, ht, hs, -⟩ := ha.symm.transfer hu
    have hpath : t.path = u.path := (shape_eq.1 hs).2.1
    exact pendingFor?_eq_none.1 h.idle j t ht (by rwa [hpath, isPending_of_shape hs])
  obtain ⟨transfers, log, rfl, -, -⟩ := ha
  exact ⟨h.placeholder, h.file, h.empty, hidle, h.covered⟩

theorem Alike.read {path : Path} {offset length : Nat} (ha : Alike k f g) :
    Alike k (f.next (.read path offset length)) (g.next (.read path offset length)) := by
  have hopens : ∀ {p e}, f.Opens path p e →
      Alike k (f.next (.read path offset length)) (g.next (.read path offset length)) := by
    intro p e h
    simpa only [next, startRead_opens h, startRead_opens (ha.opens h)] using ha.opened e.1 path p.metadata.byteSize
  rcases startRead_cases path offset length f with ⟨hf, -⟩ | ⟨p, e, h⟩
  · rcases startRead_cases path offset length g with ⟨hg, -⟩ | ⟨p, e, h⟩
    · simpa only [next, hf, hg] using ha
    · exact hopens (ha.symm.opens h)
  · exact hopens h

theorem Alike.isNone_readResult? {reader : Reader} (ha : Alike k f g) (h : (f.readResult? reader).isNone = true) :
    (g.readResult? reader).isNone = true := by
  obtain ⟨t, ht, hp⟩ := readResult?_isNone.1 h
  obtain ⟨u, hu, hs, -⟩ := ha.transfer ht
  exact readResult?_isNone.2 ⟨u, hu, by rwa [isPending_of_shape hs]⟩

theorem Alike.giveUp {reader : Reader} (ha : Alike k f g) :
    Alike k (f.next (.giveUp reader)) (g.next (.giveUp reader)) := by
  have hiff : (f.readResult? reader).isNone = (g.readResult? reader).isNone :=
    Bool.eq_iff_iff.2 ⟨ha.isNone_readResult?, ha.symm.isNone_readResult?⟩
  simp only [next, ← hiff]
  split
  · obtain ⟨transfers, log, rfl, hothers, hk⟩ := ha
    refine ⟨_, log, rfl, fun j hj => ?_, ?_⟩
    · simp only [Facility.giveUp, Table.get?_erase, hothers j hj]
    · simp only [Facility.giveUp, Table.get?_erase]
      split
      · rfl
      · exact hk
  · exact ha

/-! ## Transfer operations -/

theorem Alike.awaits {op : TransferOperation} {t : Transfer} (ha : Alike k f g) (h : f.Awaits op t) :
    ∃ u, g.Awaits op u ∧ shape u = shape t ∧ (op.transfer ≠ k → u = t) := by
  obtain ⟨u, hu, hs, hne⟩ := ha.transfer h.transfer
  have hconnection : u.connection = t.connection := (shape_eq.1 hs).1
  have hpending : u.isPending = true := by rw [isPending_of_shape hs, h.pending]
  obtain ⟨transfers, log, rfl, -, -⟩ := ha
  exact ⟨u, ⟨h.isOpen, hu, hconnection.trans h.connection, hpending⟩, hs, hne⟩

theorem carries_of_shape {op : TransferOperation} {data : Bytes} {t u : Transfer} (hs : shape u = shape t)
    (h : Carries op data t) : Carries op data u := by
  have hlength : u.length = t.length := (shape_eq.1 hs).2.2.1
  exact ⟨h.success, h.buffer, h.offset, h.length, hlength ▸ h.fits⟩

theorem Alike.logged {op : TransferOperation} {accepted : Bool} (ha : Alike k f g) :
    Alike k (f.logged op accepted) (g.logged op accepted) := by
  obtain ⟨transfers, log, rfl, hothers, hk⟩ := ha
  exact ⟨transfers, _, rfl, hothers, hk⟩

theorem Alike.insert {j : TransferKey} {t u : Transfer} (ha : Alike k f g) (hs : shape u = shape t) (hne : j ≠ k → u = t) :
    Alike k { f with transfers := f.transfers.insert j t } { g with transfers := g.transfers.insert j u } := by
  obtain ⟨transfers, log, rfl, hothers, hk⟩ := ha
  refine ⟨_, log, rfl, fun i hi => ?_, ?_⟩
  · by_cases hij : i = j
    · subst hij
      simp [hne hi]
    · simp only [Table.get?_insert_of_ne hij, hothers i hi]
  · by_cases hkj : k = j
    · subst hkj
      simp [hs]
    · simpa only [Table.get?_insert_of_ne hkj] using hk

theorem Alike.commit {t : Transfer} (ha : Alike k f g) :
    Alike k { f with placeholders := commit f.placeholders t } { g with placeholders := commit g.placeholders t } := by
  obtain ⟨transfers, log, rfl, hothers, hk⟩ := ha
  exact ⟨transfers, log, rfl, hothers, hk⟩

theorem Alike.store {j : TransferKey} {t : Transfer} (ha : Alike k f g) : Alike k (f.store j t) (g.store j t) := by
  unfold Facility.store
  split
  · exact ha.commit.insert rfl fun _ => rfl
  · exact ha.insert rfl fun _ => rfl

/-- An operation does the same to both states, unless it brings the transfer `k` a segment. -/
theorem Alike.execute {op : TransferOperation} (ha : Alike k f g) (hs : f.taken k (.execute op) = []) :
    Alike k (f.next (.execute op)) (g.next (.execute op)) := by
  have hfaults : g.faults .transfer = f.faults .transfer := by
    obtain ⟨transfers, log, rfl, -, -⟩ := ha
    rfl
  rcases execute_cases op f with ⟨s, hf⟩ | ⟨t, hf, ht, hcases⟩
  · rcases execute_cases op g with ⟨s', hg⟩ | ⟨u, hg, hu, hcases⟩
    · simpa only [next, hf, hg] using (ha.dropFault .transfer).logged
    · obtain ⟨t, ht, hshape, -⟩ := ha.symm.awaits hu
      rcases hcases with ⟨hstatus, -⟩ | ⟨data, hd, -⟩
      · have hf' := execute_failure (hfaults ▸ hg) ht hstatus
        cases (Prod.mk.inj (hf.symm.trans hf')).1
      · have hf' := execute_data (hfaults ▸ hg) ht (carries_of_shape hshape hd)
        cases (Prod.mk.inj (hf.symm.trans hf')).1
  obtain ⟨u, hu, hshape, hne⟩ := ha.awaits ht
  rcases hcases with ⟨hstatus, hf'⟩ | ⟨data, hd, hf'⟩
  · have hg := execute_failure (hfaults.trans hf) hu hstatus
    have hfailed : shape (u.fail op.status) = shape (t.fail op.status) := by
      obtain ⟨h1, h2, h3, -⟩ := shape_eq.1 hshape
      exact shape_eq.2 ⟨h1, h2, h3, rfl⟩
    simpa only [next, hf', hg] using (ha.insert hfailed fun hk => by rw [hne hk]).logged
  · have hg := execute_data (hfaults.trans hf) hu (carries_of_shape hshape hd)
    have hk : op.transfer ≠ k := by
      intro hk
      simp [taken, hk, hf', hd.success, Except.isOk, Except.toBool] at hs
    obtain rfl := hne hk
    simpa only [next, hf', hg] using ha.store.logged

/-- Apart from segments for the transfer `k`, a move keeps the states alike. -/
theorem Alike.next (ha : Alike k f g) (hs : f.taken k m = []) : Alike k (f.next m) (g.next m) := by
  cases m with
  | register root registration => exact ha.register
  | unregister root => exact ha.unregister
  | connect root handler => exact ha.connect
  | disconnect key => exact ha.disconnect
  | create parent new => exact ha.create
  | update path metadata identity => exact ha.update
  | dehydrate path => exact ha.dehydrate
  | execute op => exact ha.execute hs
  | planFault op status =>
    obtain ⟨transfers, log, rfl, hothers, hk⟩ := ha
    exact ⟨transfers, log, rfl, hothers, hk⟩
  | markInUse path inUse =>
    obtain ⟨transfers, log, rfl, hothers, hk⟩ := ha
    exact ⟨transfers, log, rfl, hothers, hk⟩
  | fill path data => exact ha.fill
  | begin path => exact ha.begin
  | read path offset length => exact ha.read
  | giveUp reader => exact ha.giveUp
  | rearrange pick =>
    obtain ⟨transfers, log, rfl, hothers, hk⟩ := ha
    exact ⟨transfers, log, rfl, hothers, hk⟩

/-- A segment that does not complete the transfer `k` can be left out. -/
theorem Alike.skip (ha : Alike k f g) (hs : f.taken k m ≠ [])
    (hc : ((f.next m).transfers.get? k).map Transfer.phase ≠ some .completed) : Alike k (f.next m) g := by
  cases (next_spec f m).transferChange k with
  | @received t data op hm hk ht hd hg hs =>
    subst hk
    rw [hg] at hc ⊢
    have hpartial : (t.receive op.offset.toNat data).isComplete = false := by
      cases h : (t.receive op.offset.toNat data).isComplete with
      | false => rfl
      | true => simp [Facility.logged, h, Transfer.complete] at hc
    obtain ⟨transfers, log, rfl, hothers, hk⟩ := ha
    refine ⟨transfers, log, ?_, fun j hj => ?_, ?_⟩
    · simp [Facility.logged, Facility.store, hpartial]
    · simp [Facility.logged, hothers j hj, Table.get?_insert_of_ne hj]
    · have hshape : shape (t.receive op.offset.toNat data) = shape t := rfl
      simp [Facility.logged, hpartial, hshape, hk, ht.transfer]
  | _ => contradiction

/-! ## The run without the segments of a transfer -/

def withoutFrom (k : TransferKey) (f : Facility) : List Move → List Move
  | [] => []
  | m :: ms => if (f.taken k m).isEmpty then m :: withoutFrom k (f.next m) ms else withoutFrom k (f.next m) ms

/-- The run without the moves in which the transfer `k` accepts a segment. -/
def without (k : TransferKey) (ms : List Move) : List Move := withoutFrom k empty ms

theorem Alike.without (ha : Alike k f g)
    (hc : ∀ before rest, ms = before ++ rest →
      ((before.foldl Facility.next f).transfers.get? k).map Transfer.phase ≠ some .completed) :
    Alike k (ms.foldl Facility.next f) ((withoutFrom k f ms).foldl Facility.next g) := by
  induction ms generalizing f g with
  | nil => exact ha
  | cons m ms ih =>
    have hrest : ∀ before rest, ms = before ++ rest →
        ((before.foldl Facility.next (f.next m)).transfers.get? k).map Transfer.phase ≠ some .completed :=
      fun before rest h => hc (m :: before) rest (by rw [h, List.cons_append])
    simp only [withoutFrom]
    split
    · rename_i hs
      exact ih (ha.next (List.isEmpty_iff.1 hs)) hrest
    · rename_i hs
      exact ih (ha.skip (fun h => hs (List.isEmpty_iff.2 h)) (hc [m] ms rfl)) hrest

/-- The transfer `k` has been opened, and has failed or is gone. -/
def Abandoned (k : TransferKey) (f : Facility) : Prop :=
  k.value ≤ f.lastTransfer ∧ ∀ t, f.transfers.get? k = some t → ∃ s, t.phase = .failed s

theorem foldl_next_append (before rest : List Move) :
    (before ++ rest).foldl next empty = rest.foldl next (after before) := List.foldl_append ..

/-- Once a transfer is abandoned, it had not completed before and never will. -/
theorem not_completed_of_abandoned (h : Abandoned k (after ms)) {before rest tail : List Move}
    (hms : ms ++ tail = before ++ rest) :
    ((after before).transfers.get? k).map Transfer.phase ≠ some .completed := by
  intro hphase
  obtain ⟨t, ht, hcompleted⟩ := Option.map_eq_some_iff.1 hphase
  have hended : ∀ u, (after before).transfers.get? k = some u → u.isPending = false := by
    intro u hu
    obtain rfl := Option.some.inj (ht.symm.trans hu)
    simp [Transfer.isPending, hcompleted]
  obtain ⟨hk, hfailed⟩ := h
  rcases List.append_eq_append_iff.1 hms with ⟨middle, rfl, -⟩ | ⟨middle, rfl, -⟩
  · have hkept : (after (ms ++ middle)).transfers.get? k = (after ms).transfers.get? k := by
      rw [after, foldl_next_append]
      refine transfers_foldl_of_ended hk fun u hu => ?_
      obtain ⟨s, hs⟩ := hfailed u hu
      simp [Transfer.isPending, hs]
    obtain ⟨s, hs⟩ := hfailed t (hkept ▸ ht)
    rw [hcompleted] at hs
    cases hs
  · have hkept : (after (before ++ middle)).transfers.get? k = (after before).transfers.get? k := by
      rw [after, foldl_next_append]
      exact transfers_foldl_of_ended ((traced_after before).issued ht) hended
    obtain ⟨s, hs⟩ := hfailed t (hkept ▸ ht)
    rw [hcompleted] at hs
    cases hs

/-- What an abandoned transfer had accepted makes no difference to any placeholder, then or later. -/
theorem placeholders_without (h : Abandoned k (after ms)) (rest : List Move) :
    (after (without k (ms ++ rest))).placeholders = (after (ms ++ rest)).placeholders := by
  have ha : Alike k (after (ms ++ rest)) (after (without k (ms ++ rest))) :=
    (alike_refl k empty).without fun before rest' hms => not_completed_of_abandoned h hms
  exact ha.placeholders

end OnDemand.Facility
