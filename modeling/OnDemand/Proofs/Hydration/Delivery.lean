import Mathlib.Logic.Relation
import OnDemand.Hydration.Pool
import OnDemand.Proofs.Facility.Content
import OnDemand.Proofs.Hydration.Plan
import OnDemand.Store.Memory

/-!
# Many servers, one transfer

Several requests of one transfer are served at the same time; what they send comes to the facility in any order. From
a store that holds the file, the placeholder gets the whole of it or nothing.
-/

namespace OnDemand

open Facility (contentAt)

theorem forall_mem_set {α : Type} {P : α → Prop} {xs : List α} {n : Nat} {y : α} (h : ∀ x ∈ xs, P x) (hy : P y) :
    ∀ x ∈ xs.set n y, P x := by
  intro x hx
  rcases List.mem_or_eq_of_mem_set hx with hx | rfl
  · exact h x hx
  · exact hy

/-! ## Serving piece by piece -/

/-- How far a request has been served. -/
inductive Server where
  /-- The store has not been asked yet. -/
  | fetching (r : Request)
  /-- `rest` is still to be sent. -/
  | sending (r : Request) (rest : List Completion)
deriving DecidableEq, Repr

def Server.isDone : Server → Bool
  | .fetching _ => false
  | .sending _ rest => rest.isEmpty

/-- A bridge, the requests being served through it, and what has been sent for them so far. -/
structure Delivery where
  bridge : Bridge Facility
  servers : List Server
  sent : List Completion

namespace Delivery

def start (bridge : Bridge Facility) (requests : List Request) : Delivery := ⟨bridge, requests.map .fetching, []⟩

def isOver (s : Delivery) : Bool := s.servers.all Server.isDone

def holding (ρ : Route) (b : Bridge Facility) : Option (Option Bytes) := (b.facility.placeholders.get? ρ).map (·.content)

/-- Nothing that concerns the transfer `k` of the file at `ρ` changes from `b` to `b'`. -/
structure Spares (connection : ConnectionKey) (k : TransferKey) (ρ : Route) (b b' : Bridge Facility) : Prop where
  isOpen : b'.facility.connections.contains connection = b.facility.connections.contains connection
  live : b'.live.isClosed connection = b.live.isClosed connection
  faults : b'.facility.faults .transfer = b.facility.faults .transfer
  transfer : b'.facility.transfers.get? k = b.facility.transfers.get? k
  content : holding ρ b' = holding ρ b

/-- One server asks the store or sends the next piece, in segments of `chunk` bytes; a refusal makes it give up. In
between, other parts of the program do what spares the transfer `k` of the file at `ρ`. -/
inductive Step (store : ObjectStore) (chunk : Nat) (connection : ConnectionKey) (k : TransferKey) (ρ : Route) :
    Delivery → Delivery → Prop where
  | fetch {s : Delivery} {i : Nat} {r : Request} (hi : s.servers[i]? = some (.fetching r)) :
      Step store chunk connection k ρ s
        { s with servers := s.servers.set i (.sending r (Answer.plan chunk r (store.fetched r))) }
  | send {s : Delivery} {i : Nat} {r : Request} {c : Completion} {rest : List Completion} {b : Bridge Facility}
      (hi : s.servers[i]? = some (.sending r (c :: rest)))
      (hb : s.bridge.deliver r.connection r.transfer c = (.ok (), b)) :
      Step store chunk connection k ρ s ⟨b, s.servers.set i (.sending r rest), s.sent ++ [c]⟩
  | abandon {s : Delivery} {i : Nat} {r : Request} {c : Completion} {rest : List Completion} {b : Bridge Facility}
      {e : TransferError} (hi : s.servers[i]? = some (.sending r (c :: rest)))
      (hb : s.bridge.deliver r.connection r.transfer c = (.error e, b)) :
      Step store chunk connection k ρ s ⟨b, s.servers.set i (.sending r []), s.sent ++ [c]⟩
  | elsewhere {s : Delivery} {b : Bridge Facility} (h : Spares connection k ρ s.bridge b) :
      Step store chunk connection k ρ s { s with bridge := b }

abbrev Steps (store : ObjectStore) (chunk : Nat) (connection : ConnectionKey) (k : TransferKey) (ρ : Route) :
    Delivery → Delivery → Prop := Relation.ReflTransGen (Step store chunk connection k ρ)

variable {store : ObjectStore} {chunk : Nat} {connection : ConnectionKey} {k : TransferKey} {ρ : Route} {s s' : Delivery}
  {file : Bytes} {object : String} {before : Option Bytes}

/-! ## Undisturbed servers -/

/-- A server that sends undisturbed does what sending its plan in one go does. -/
theorem steps_send {i : Nat} {r : Request} {plan : List Completion} (hi : s.servers[i]? = some (.sending r plan)) :
    ∃ sent, Steps store chunk connection k ρ s
      ⟨(Answer.send r plan s.bridge).2, s.servers.set i (.sending r []), sent⟩ := by
  induction plan generalizing s with
  | nil =>
    refine ⟨s.sent, ?_⟩
    obtain ⟨hlt, hget⟩ := List.getElem?_eq_some_iff.1 hi
    rw [← hget, List.set_getElem_self hlt]
    exact .refl
  | cons c rest ih =>
    have hlt : i < s.servers.length := (List.getElem?_eq_some_iff.1 hi).1
    cases hb : s.bridge.deliver r.connection r.transfer c with
    | mk answer b =>
      cases answer with
      | ok u =>
        have hstep : Step store chunk connection k ρ s ⟨b, s.servers.set i (.sending r rest), s.sent ++ [c]⟩ :=
          .send hi hb
        obtain ⟨sent, hsteps⟩ := ih (s := ⟨b, s.servers.set i (.sending r rest), s.sent ++ [c]⟩) (by simp [hlt])
        refine ⟨sent, .head hstep ?_⟩
        simpa [Answer.send, hb] using hsteps
      | error e =>
        refine ⟨s.sent ++ [c], .single ?_⟩
        simpa [Answer.send, hb] using Step.abandon hi hb

theorem steps_serve {i : Nat} {r : Request} (hi : s.servers[i]? = some (.fetching r)) :
    ∃ sent, Steps store chunk connection k ρ s
      ⟨(Answer.serve chunk r (store.fetched r) s.bridge).2, s.servers.set i (.sending r []), sent⟩ := by
  have hlt : i < s.servers.length := (List.getElem?_eq_some_iff.1 hi).1
  have hfetched : (s.servers.set i (.sending r (Answer.plan chunk r (store.fetched r))))[i]? =
      some (.sending r (Answer.plan chunk r (store.fetched r))) := List.getElem?_set_self hlt
  obtain ⟨sent, hsteps⟩ := steps_send (s := { s with servers := _ }) hfetched
  refine ⟨sent, .head (.fetch hi) ?_⟩
  rw [List.set_set] at hsteps
  rw [Answer.serve, Answer.run_bridge]
  exact hsteps

theorem exists_done_below (s : Delivery) (n : Nat) :
    ∃ s', Steps store chunk connection k ρ s s' ∧ s'.servers.length = s.servers.length ∧
      ∀ j < n, ∀ v, s'.servers[j]? = some v → v.isDone = true := by
  induction n with
  | zero => exact ⟨s, .refl, rfl, fun j hj => absurd hj (Nat.not_lt_zero j)⟩
  | succ n ih =>
    obtain ⟨s', hsteps, hlength, hdone⟩ := ih
    -- Bringing the server `n` to its end leaves the others as they are.
    have hset : ∀ b sent r, Steps store chunk connection k ρ s' ⟨b, s'.servers.set n (.sending r []), sent⟩ →
        ∃ s'', Steps store chunk connection k ρ s s'' ∧ s''.servers.length = s.servers.length ∧
          ∀ j < n + 1, ∀ v, s''.servers[j]? = some v → v.isDone = true := by
      intro b sent r h
      refine ⟨_, hsteps.trans h, by simp [hlength], fun j hj v hv => ?_⟩
      by_cases hjn : n = j
      · subst hjn
        rw [List.getElem?_set] at hv
        split at hv
        · split at hv
          · obtain rfl := Option.some.inj hv
            rfl
          · cases hv
        · contradiction
      · rw [List.getElem?_set_ne hjn] at hv
        exact hdone j (by omega) v hv
    cases hn : s'.servers[n]? with
    | none =>
      refine ⟨s', hsteps, hlength, fun j hj v hv => ?_⟩
      by_cases hjn : j = n
      · subst hjn
        rw [hn] at hv
        cases hv
      · exact hdone j (by omega) v hv
    | some v =>
      cases v with
      | fetching r =>
        obtain ⟨sent, h⟩ := steps_serve hn
        exact hset _ _ _ h
      | sending r rest =>
        obtain ⟨sent, h⟩ := steps_send hn
        exact hset _ _ _ h

theorem exists_isOver (s : Delivery) : ∃ s', Steps store chunk connection k ρ s s' ∧ s'.isOver = true := by
  obtain ⟨s', hsteps, hlength, hdone⟩ := exists_done_below s s.servers.length
  refine ⟨s', hsteps, List.all_eq_true.2 fun v hv => ?_⟩
  obtain ⟨j, hj, hget⟩ := List.mem_iff_getElem.1 hv
  exact hdone j (hlength ▸ hj) v (by rw [List.getElem?_eq_getElem hj, hget])

/-! ## Sending a piece -/

/-- The connection is open, and no refusal is planned for what is sent through it. -/
structure Ready (connection : ConnectionKey) (b : Bridge Facility) : Prop where
  isOpen : b.facility.connections.contains connection = true
  live : b.live.isClosed connection = false
  clear : b.facility.faults .transfer = none

/-- The bytes that `t` has are those of `file`. -/
structure Agrees (file : Bytes) (t : Transfer) : Prop where
  length : t.length = file.length
  canonical : t.received.Canonical t.length
  size : t.buffer.length = t.length
  bytes : ∀ i, t.received.covers i → t.buffer[i]? = file[i]?

theorem Agrees.receive {t : Transfer} {offset : Nat} {bytes : Bytes} (h : Agrees file t)
    (hc : (Completion.data offset bytes).PieceOf file) : Agrees file (t.receive offset bytes) := by
  have hfits : offset + bytes.length ≤ t.length := by
    rw [h.length]
    exact hc.1
  refine ⟨h.length, Transfer.canonical_receive h.canonical hfits, Transfer.length_buffer_receive h.size hfits,
    fun i hi => ?_⟩
  rw [Transfer.getElem?_buffer_receive h.size hfits]
  split
  · rename_i hin
    rw [hc.2 (i - offset) (by omega), Nat.add_sub_cancel' hin.1]
  · rename_i hout
    exact h.bytes i (((Transfer.covers_receive h.canonical i).1 hi).resolve_left hout)

theorem Agrees.buffer_eq {t : Transfer} (h : Agrees file t) (hc : t.isComplete = true) : t.buffer = file := by
  refine List.ext_getElem? fun i => ?_
  by_cases hi : i < t.length
  · exact h.bytes i (Coverage.covers_of_isComplete hc hi)
  · rw [List.getElem?_eq_none (by rw [h.size]; omega), List.getElem?_eq_none (by rw [← h.length]; omega)]

/-- `t` is pending for the file at `ρ`, with bytes of `file` but not all of them. -/
structure Partial (connection : ConnectionKey) (ρ : Route) (file : Bytes) (t : Transfer) : Prop where
  connection : t.connection = connection
  path : t.path.route = ρ
  pending : t.isPending = true
  agrees : Agrees file t
  incomplete : t.isComplete = false

/-- The transfer `k` is pending, and each position is covered or `owed`, or it has completed and left `file`. -/
inductive Stand (connection : ConnectionKey) (k : TransferKey) (ρ : Route) (file : Bytes) (before : Option Bytes)
    (b : Bridge Facility) (owed : Nat → Prop) : Prop where
  | pending {t : Transfer} (ht : b.facility.transfers.get? k = some t) (hpartial : Partial connection ρ file t)
      (hcontent : holding ρ b = some before) (howed : ∀ i < file.length, t.received.covers i ∨ owed i)
  | completed {t : Transfer} (ht : b.facility.transfers.get? k = some t) (hphase : t.phase = .completed)
      (hcontent : holding ρ b = some (some file))

variable {b b' : Bridge Facility} {owed : Nat → Prop} {c : Completion}

theorem Ready.spares (hr : Ready connection b) (h : Spares connection k ρ b b') : Ready connection b' where
  isOpen := h.isOpen.trans hr.isOpen
  live := h.live.trans hr.live
  clear := h.faults.trans hr.clear

theorem Stand.spares (hs : Stand connection k ρ file before b owed) (h : Spares connection k ρ b b') :
    Stand connection k ρ file before b' owed := by
  cases hs with
  | pending ht hpartial hcontent howed =>
    exact .pending (h.transfer.trans ht) hpartial (h.content.trans hcontent) howed
  | completed ht hphase hcontent => exact .completed (h.transfer.trans ht) hphase (h.content.trans hcontent)

theorem Ready.facility (hr : Ready connection b) {f : Facility} (hopen : f.connections = b.facility.connections)
    (hfaults : f.faults = b.facility.faults) : Ready connection { b with facility := f } where
  isOpen := by rw [hopen]; exact hr.isOpen
  live := hr.live
  clear := by rw [hfaults]; exact hr.clear

theorem deliver_data {offset : Nat} {bytes : Bytes} (hlive : b.live.isClosed connection = false)
    (hoffset : (offset : Int) ≤ Word.maxSigned) :
    b.deliver connection k (.data offset bytes) =
      ((Facility.execute (.data connection k bytes offset) b.facility).1.mapError (.classify connection k),
        { b with facility := (Facility.execute (.data connection k bytes offset) b.facility).2 }) := by
  have hfits : Word.fitsSigned (offset : Int) = true :=
    Word.fitsSigned_iff.2 ⟨by simp only [Word.minSigned]; omega, hoffset⟩
  have hclosed : b.live.isClosed (Completion.operation connection k (.data offset bytes)).connection = false := hlive
  simp only [Bridge.deliver, Completion.offset, hfits, if_true, Bridge.execute, hclosed]
  rfl

theorem awaits_of_partial {t : Transfer} {offset : Nat} {bytes : Bytes} (hr : Ready connection b)
    (ht : b.facility.transfers.get? k = some t) (hpartial : Partial connection ρ file t) :
    b.facility.Awaits (.data connection k bytes offset) t :=
  ⟨hr.isOpen, ht, hpartial.connection, hpartial.pending⟩

theorem carries_of_pieceOf {t : Transfer} {offset : Nat} {bytes : Bytes} (h : Agrees file t)
    (hc : (Completion.data offset bytes).PieceOf file) :
    Facility.Carries (.data connection k bytes offset) bytes t where
  success := rfl
  buffer := rfl
  offset := Int.natCast_nonneg offset
  length := rfl
  fits := by
    rw [h.length]
    exact hc.1

theorem get?_store_logged (f : Facility) (k : TransferKey) (op : TransferOperation) (t : Transfer) :
    ((f.store k t).logged op true).transfers.get? k = some (if t.isComplete then t.complete else t) := by
  simp [Facility.logged]

theorem stand_receive {t : Transfer} {offset : Nat} {bytes : Bytes} {owed' : Nat → Prop}
    (hpartial : Partial connection ρ file t) (hcontent : holding ρ b = some before)
    (hpiece : (Completion.data offset bytes).PieceOf file)
    (howed : ∀ i < file.length, t.received.covers i ∨ (offset ≤ i ∧ i < offset + bytes.length) ∨ owed' i) :
    Stand connection k ρ file before
      { b with facility := (b.facility.store k (t.receive offset bytes)).logged (.data connection k bytes offset) true }
      owed' := by
  have hagrees := hpartial.agrees.receive hpiece
  have hget := get?_store_logged b.facility k (.data connection k bytes offset) (t.receive offset bytes)
  have hplaceholders :
      ((b.facility.store k (t.receive offset bytes)).logged (.data connection k bytes offset) true).placeholders =
        if (t.receive offset bytes).isComplete then Facility.commit b.facility.placeholders (t.receive offset bytes)
        else b.facility.placeholders := Facility.store_placeholders
  by_cases hc : (t.receive offset bytes).isComplete = true
  · rw [if_pos hc] at hget hplaceholders
    refine .completed hget rfl ?_
    obtain ⟨p, hp, -⟩ := Option.map_eq_some_iff.1 hcontent
    have hcommit : (Facility.commit b.facility.placeholders (t.receive offset bytes)).get? ρ =
        some { p with content := some file } := by
      rw [Facility.commit, hagrees.buffer_eq hc, ← hpartial.path]
      rw [← hpartial.path] at hp
      exact Table.get?_modify_self.trans (congrArg (Option.map _) hp)
    rw [holding, hplaceholders, hcommit]
    rfl
  · rw [if_neg hc] at hget hplaceholders
    refine .pending hget ⟨hpartial.connection, hpartial.path, hpartial.pending, hagrees, by simpa using hc⟩ ?_ ?_
    · rw [holding, hplaceholders]
      exact hcontent
    · intro i hi
      have hcanonical := hpartial.agrees.canonical
      rcases howed i hi with h | h | h
      · exact .inl ((Transfer.covers_receive hcanonical i).2 (.inr h))
      · exact .inl ((Transfer.covers_receive hcanonical i).2 (.inl h))
      · exact .inr h

/-- A piece is accepted while the transfer is pending, and refused, without consequences, once it has completed. -/
theorem Stand.deliver (hs : Stand connection k ρ file before b owed) (hr : Ready connection b)
    (hlength : (file.length : Int) ≤ Word.maxSigned) (hpiece : c.PieceOf file) :
    (∃ b', b.deliver connection k c = (.ok (), b') ∧ Ready connection b' ∧
      ∀ owed' : Nat → Prop, (∀ i, owed i → c.Covers i ∨ owed' i) → Stand connection k ρ file before b' owed') ∨
    (∃ e b', b.deliver connection k c = (.error e, b') ∧ Ready connection b' ∧
      ∀ owed', Stand connection k ρ file before b' owed') := by
  cases c with
  | failure offset status => exact absurd hpiece id
  | data offset bytes =>
    have hoffset : (offset : Int) ≤ Word.maxSigned := by
      have hfits := hpiece.1
      omega
    rw [deliver_data hr.live hoffset]
    cases hs with
    | @pending t ht hpartial hcontent howed =>
      have hexecute := Facility.execute_data hr.clear (awaits_of_partial hr ht hpartial)
        (carries_of_pieceOf hpartial.agrees hpiece)
      rw [hexecute]
      refine .inl ⟨_, rfl, hr.facility Facility.store_connections Facility.store_faults, fun owed' hsub => ?_⟩
      refine stand_receive hpartial hcontent hpiece fun i hi => ?_
      exact (howed i hi).imp_right (hsub i)
    | @completed t ht hphase hcontent =>
      -- A transfer that has completed awaits nothing.
      rcases Facility.execute_cases (.data connection k bytes offset) b.facility with ⟨status, h⟩ | ⟨u, -, hu, -⟩
      · rw [Facility.dropFault_eq_self hr.clear] at h
        rw [h]
        exact .inr ⟨.classify connection k status, _, rfl, hr.facility rfl rfl, fun owed' => .completed ht hphase hcontent⟩
      · obtain rfl := Option.some.inj (ht.symm.trans hu.transfer)
        have hpending := hu.pending
        simp [Transfer.isPending, hphase] at hpending

/-! ## All servers together -/

def Honest (connection : ConnectionKey) (k : TransferKey) (object : String) (file : Bytes) : Server → Prop
  | .fetching r => r.connection = connection ∧ r.transfer = k ∧ r.identity.text? = some object ∧ Answer.Fits file.length r
  | .sending r rest => r.connection = connection ∧ r.transfer = k ∧ ∀ c ∈ rest, c.PieceOf file

/-- The server still has to send a byte for position `i`. -/
def Owes (i : Nat) : Server → Prop
  | .fetching r => r.offset ≤ i ∧ i < r.offset + r.length
  | .sending _ rest => ∃ c ∈ rest, c.Covers i

def Owed (servers : List Server) (i : Nat) : Prop := ∃ (n : Nat) (v : Server), servers[n]? = some v ∧ Owes i v

theorem owed_set {servers : List Server} {n i : Nat} {v w : Server} {P : Prop} (hn : servers[n]? = some v)
    (h : Owed servers i) (hw : Owes i v → P ∨ Owes i w) : P ∨ Owed (servers.set n w) i := by
  obtain ⟨j, u, hj, hu⟩ := h
  have hlt : n < servers.length := (List.getElem?_eq_some_iff.1 hn).1
  by_cases hnj : n = j
  · subst hnj
    obtain rfl := Option.some.inj (hn.symm.trans hj)
    exact (hw hu).imp_right fun hu => ⟨n, w, List.getElem?_set_self hlt, hu⟩
  · exact .inr ⟨j, u, by rw [List.getElem?_set_ne hnj, hj], hu⟩

/-- What holds of all servers and of the transfer that they serve, between any two steps. -/
structure Sound (connection : ConnectionKey) (k : TransferKey) (ρ : Route) (object : String) (file : Bytes)
    (before : Option Bytes) (s : Delivery) : Prop where
  ready : Ready connection s.bridge
  stand : Stand connection k ρ file before s.bridge (Owed s.servers)
  honest : ∀ v ∈ s.servers, Honest connection k object file v
  sent : ∀ c ∈ s.sent, c.PieceOf file

theorem Stand.mono {owed' : Nat → Prop} (hs : Stand connection k ρ file before b owed) (h : ∀ i, owed i → owed' i) :
    Stand connection k ρ file before b owed' := by
  cases hs with
  | pending ht hpartial hcontent howed => exact .pending ht hpartial hcontent fun i hi => (howed i hi).imp_right (h i)
  | completed ht hphase hcontent => exact .completed ht hphase hcontent

theorem sent_append {sent : List Completion} (h : ∀ c ∈ sent, c.PieceOf file) (hc : c.PieceOf file) :
    ∀ c' ∈ sent ++ [c], c'.PieceOf file := by
  intro c' hc'
  rcases List.mem_append.1 hc' with hc' | hc'
  · exact h c' hc'
  · rw [List.mem_singleton.1 hc']
    exact hc

theorem Sound.step {content : Bytes} {length : Nat} (hstore : store.Holds object content)
    (hlength : (length : Int) ≤ Word.maxSigned) (hcontent : length ≤ content.length) (hchunk : 0 < chunk)
    (hs : Sound connection k ρ object (content.take length) before s) (hstep : Step store chunk connection k ρ s s') :
    Sound connection k ρ object (content.take length) before s' := by
  have hfile : (content.take length).length = length := by
    rw [List.length_take]
    omega
  cases hstep with
  | @fetch i r hi =>
    obtain ⟨hconnection, htransfer, hidentity, hfits⟩ := hs.honest _ (List.mem_of_getElem? hi)
    rw [hfile] at hfits
    refine ⟨hs.ready, hs.stand.mono fun j hj => ?_,
      forall_mem_set hs.honest ⟨hconnection, htransfer, fun c hc => ?_⟩, hs.sent⟩
    · refine (owed_set hi hj fun hj => .inr ?_).resolve_left id
      exact Answer.exists_covers_plan hstore hidentity hfits hlength hcontent hchunk hj.1 hj.2
    · exact Answer.pieceOf_of_mem_plan hstore hidentity hfits hlength hcontent hc
  | @send i r c rest b hi hb =>
    obtain ⟨rfl, rfl, hpieces⟩ := hs.honest _ (List.mem_of_getElem? hi)
    have hpiece := hpieces c List.mem_cons_self
    rcases hs.stand.deliver hs.ready (by rwa [hfile]) hpiece with ⟨b', hb', hready, hstand⟩ | ⟨e, b', hb', -, -⟩
    · obtain ⟨-, rfl⟩ := Prod.mk.inj (hb.symm.trans hb')
      refine ⟨hready, hstand _ fun j hj => owed_set hi hj fun hj => ?_,
        forall_mem_set hs.honest ⟨rfl, rfl, fun c hc => hpieces c (List.mem_cons_of_mem _ hc)⟩, sent_append hs.sent hpiece⟩
      obtain ⟨c', hc', hcovers⟩ := hj
      rcases List.mem_cons.1 hc' with rfl | hc'
      · exact .inl hcovers
      · exact .inr ⟨c', hc', hcovers⟩
    · exact nomatch (Prod.mk.inj (hb.symm.trans hb')).1
  | @abandon i r c rest b e hi hb =>
    obtain ⟨rfl, rfl, hpieces⟩ := hs.honest _ (List.mem_of_getElem? hi)
    have hpiece := hpieces c List.mem_cons_self
    rcases hs.stand.deliver hs.ready (by rwa [hfile]) hpiece with ⟨b', hb', -, -⟩ | ⟨e', b', hb', hready, hstand⟩
    · exact nomatch (Prod.mk.inj (hb.symm.trans hb')).1
    · obtain ⟨-, rfl⟩ := Prod.mk.inj (hb.symm.trans hb')
      exact ⟨hready, hstand _, forall_mem_set hs.honest ⟨rfl, rfl, fun c hc => nomatch hc⟩, sent_append hs.sent hpiece⟩
  | elsewhere h => exact ⟨hs.ready.spares h, hs.stand.spares h, hs.honest, hs.sent⟩

theorem not_owed_of_isOver (h : s.isOver = true) (i : Nat) : ¬Owed s.servers i := by
  rintro ⟨n, v, hn, hv⟩
  have hdone := List.all_eq_true.1 h v (List.mem_of_getElem? hn)
  cases v with
  | fetching r => cases hdone
  | sending r rest =>
    obtain ⟨c, hc, -⟩ := hv
    rw [List.isEmpty_iff.1 hdone] at hc
    cases hc

theorem Sound.completed (hs : Sound connection k ρ object file before s) (h : s.isOver = true) :
    (s.bridge.facility.transfers.get? k).map Transfer.phase = some .completed ∧
      holding ρ s.bridge = some (some file) := by
  cases hs.stand with
  | pending ht hpartial hcontent howed =>
    have hcovers : ∀ i < _, _ := fun i hi => (howed i hi).resolve_right (not_owed_of_isOver h i)
    rw [← hpartial.agrees.length] at hcovers
    have hcomplete := Coverage.isComplete_of_covers hpartial.agrees.canonical hcovers
    exact absurd (hpartial.incomplete.symm.trans hcomplete) nofun
  | completed ht hphase hcontent => exact ⟨by rw [ht, Option.map_some, hphase], hcontent⟩

/-! ## From a run of the facility -/

/-- After the run `ms` the transfer `k` is pending as `t`, on an open connection, for the placeholder `p`, whatever the size
of `p` is by now; the object has content for all of the transfer; the requests are on this transfer, lie within it, ask
for something and cover it together. -/
structure Scene (ms : List Facility.Move) (live : LiveTable) (k : TransferKey) (t : Transfer) (p : Placeholder)
    (store : ObjectStore) (object : String) (content : Bytes) (requests : List Request) : Prop where
  transfer : (Facility.after ms).transfers.get? k = some t
  pending : t.phase = .pending
  isOpen : (Facility.after ms).connections.contains t.connection = true
  live : live.isClosed t.connection = false
  clear : (Facility.after ms).faults .transfer = none
  placeholder : (Facility.after ms).placeholders.get? t.path.route = some p
  nonempty : 1 ≤ t.length
  fits : (t.length : Int) ≤ Word.maxSigned
  holds : store.Holds object content
  long : t.length ≤ content.length
  fitting : ∀ r ∈ requests,
    r.connection = t.connection ∧ r.transfer = k ∧ r.identity.text? = some object ∧ Answer.Fits t.length r
  covered : ∀ i < t.length, ∃ r ∈ requests, r.offset ≤ i ∧ i < r.offset + r.length

variable {ms : List Facility.Move} {live : LiveTable} {t : Transfer} {p : Placeholder} {content : Bytes}
  {requests : List Request}

theorem agrees_of_segments (ht : (Facility.after ms).transfers.get? k = some t) (hp : t.isPending = true)
    (hlong : t.length ≤ content.length)
    (hsofar : ∀ i < t.length, ∀ b, supplied? (Facility.segments k ms) i = some b → content[i]? = some b) :
    Agrees (content.take t.length) t := by
  have hmade := (Facility.traced_after ms).made ht hp
  refine ⟨by rw [List.length_take]; omega, hmade.canonical, hmade.size, fun i hi => ?_⟩
  obtain ⟨b, hb⟩ := Option.isSome_iff_exists.1 ((hmade.covers i).1 hi)
  obtain ⟨span, hspan, -, hlt⟩ := hi
  have hwithin := hmade.canonical.within span hspan
  rw [hmade.bytes i b hb, List.getElem?_take_of_lt (by omega), hsofar i (by omega) b hb]

theorem Scene.sound (h : Scene ms live k t p store object content requests)
    (hsofar : ∀ i < t.length, ∀ b, supplied? (Facility.segments k ms) i = some b → content[i]? = some b) :
    Sound t.connection k t.path.route object (content.take t.length) p.content
      (Delivery.start ⟨Facility.after ms, live⟩ requests) := by
  have hpending : t.isPending = true := decide_eq_true h.pending
  have hfile : (content.take t.length).length = t.length := by
    have hlong := h.long
    rw [List.length_take]
    omega
  have hpartial : Partial t.connection t.path.route (content.take t.length) t :=
    ⟨rfl, rfl, hpending, agrees_of_segments h.transfer hpending h.long hsofar,
      (Facility.traced_after ms).incomplete h.transfer hpending h.nonempty⟩
  refine ⟨⟨h.isOpen, h.live, h.clear⟩, .pending h.transfer hpartial ?_ fun i hi => .inr ?_, fun v hv => ?_,
    fun c hc => nomatch hc⟩
  · exact congrArg (Option.map _) h.placeholder
  · obtain ⟨r, hr, hlo, hhi⟩ := h.covered i (hfile ▸ hi)
    obtain ⟨n, hn, hget⟩ := List.mem_iff_getElem.1 hr
    exact ⟨n, .fetching r, by simp [start, hn, hget], hlo, hhi⟩
  · obtain ⟨r, hr, rfl⟩ := List.mem_map.1 hv
    have hrequest := h.fitting r hr
    rw [← hfile] at hrequest
    exact hrequest

theorem contentAt_of_holding {x : Option Bytes} (h : holding ρ b = some x) : b.facility.contentAt ρ = x := by
  obtain ⟨p, hp, rfl⟩ := Option.map_eq_some_iff.1 h
  rw [contentAt, hp]
  rfl

/-- Requests that together cover a pending transfer, served at the same time from a store that holds the file: if the
bytes that the transfer has so far are those of the file, then at every moment the placeholder has what it had before or
the whole of the file, no failure is ever sent, and when all servers are done, which they can always be, the transfer has
completed and the placeholder has the file. -/
theorem servers_deliver_file (config : PoolConfig) (h : Scene ms live k t p store object content requests)
    (hsofar : ∀ i < t.length, ∀ b, supplied? (Facility.segments k ms) i = some b → content[i]? = some b)
    (hs : Steps store config.normalized.chunkSize t.connection k t.path.route
      (Delivery.start ⟨Facility.after ms, live⟩ requests) s) :
    (s.bridge.facility.contentAt t.path.route = p.content ∨
      s.bridge.facility.contentAt t.path.route = some (content.take t.length)) ∧
    (∀ c ∈ s.sent, ∃ offset bytes, c = .data offset bytes) ∧
    (s.isOver = true → (s.bridge.facility.transfers.get? k).map Transfer.phase = some .completed ∧
      s.bridge.facility.contentAt t.path.route = some (content.take t.length)) ∧
    (∃ s', Steps store config.normalized.chunkSize t.connection k t.path.route s s' ∧ s'.isOver = true) := by
  have hsound : Sound t.connection k t.path.route object (content.take t.length) p.content s := by
    induction hs with
    | refl => exact h.sound hsofar
    | tail _ hstep ih => exact ih.step h.holds h.fits h.long (alignedChunk_pos _) hstep
  refine ⟨?_, fun c hc => ?_, fun hover => ?_, exists_isOver s⟩
  · cases hsound.stand with
    | pending ht hpartial hcontent howed => exact .inl (contentAt_of_holding hcontent)
    | completed ht hphase hcontent => exact .inr (contentAt_of_holding hcontent)
  · have hpiece := hsound.sent c hc
    cases c with
    | data offset bytes => exact ⟨offset, bytes, rfl⟩
    | failure offset status => exact absurd hpiece id
  · obtain ⟨hphase, hcontent⟩ := hsound.completed hover
    exact ⟨hphase, contentAt_of_holding hcontent⟩

/-- The transfer 1 of a file of two bytes has been opened. -/
def twoBytes : List Facility.Move :=
  [.register ⟨"/r"⟩ (.new "r" "1"), .connect ⟨"/r"⟩ none, .create ⟨"/r"⟩ (.of "a" (.ofText "o") 2 0 false),
    .begin ⟨"/r/a"⟩]

def threeBytes : ObjectStore := Store.Memory.store (.ofList [("o", [1, 2, 3])])

def asked (offset length : Nat) : Request := ⟨⟨0x1001⟩, ⟨1⟩, .ofText "o", offset, length, 2, none⟩

/-- Two requests that overlap. -/
theorem servers_deliver_file_overlapping :
    ∃ s, Steps threeBytes 4096 ⟨0x1001⟩ ⟨1⟩ (Path.mk "/r/a").route
        (Delivery.start ⟨Facility.after twoBytes, .empty⟩ [asked 1 1, asked 0 2]) s ∧
      s.isOver = true ∧ s.bridge.facility.contentAt (Path.mk "/r/a").route = some [1, 2] := by
  have hscene : Scene twoBytes .empty ⟨1⟩ (.start ⟨0x1001⟩ ⟨"/r/a"⟩ 2) (.create ⟨"/r/a"⟩ (.of "a" (.ofText "o") 2 0 false))
      threeBytes "o" [1, 2, 3] [asked 1 1, asked 0 2] := by
    refine ⟨by decide +kernel, rfl, by decide +kernel, rfl, rfl, by decide +kernel, by decide, by decide, ⟨rfl, rfl⟩,
      by decide, ?_, fun i hi => ⟨asked 0 2, by simp, Nat.zero_le i, hi⟩⟩
    refine List.forall_mem_cons.2 ⟨?_, List.forall_mem_cons.2 ⟨?_, nofun⟩⟩
    · exact ⟨rfl, rfl, by decide +kernel, rfl, by decide, by decide⟩
    · exact ⟨rfl, rfl, by decide +kernel, rfl, by decide, by decide⟩
  have hsofar : ∀ i < 2, ∀ b, supplied? (Facility.segments ⟨1⟩ twoBytes) i = some b → [1, 2, 3][i]? = some b :=
    fun i hi b hb => nomatch hb
  obtain ⟨-, -, -, s, hs, hover⟩ := servers_deliver_file ⟨1, 0, 0⟩ hscene hsofar .refl
  obtain ⟨-, -, hend, -⟩ := servers_deliver_file ⟨1, 0, 0⟩ hscene hsofar hs
  exact ⟨s, hs, hover, (hend hover).2⟩

/-- The transfer of `twoBytes` has accepted a first byte that is not the object's. -/
def foreignByte : List Facility.Move := twoBytes ++ [.execute (.data ⟨0x1001⟩ ⟨1⟩ [9] 0)]

/-- Without agreement so far, the byte that the transfer had stays in the placeholder. -/
theorem foreign_byte_stays :
    ∃ t p s, Scene foreignByte .empty ⟨1⟩ t p threeBytes "o" [1, 2, 3] [asked 1 1, asked 0 1] ∧
      Steps threeBytes 4096 t.connection ⟨1⟩ t.path.route
        (Delivery.start ⟨Facility.after foreignByte, .empty⟩ [asked 1 1, asked 0 1]) s ∧
      s.isOver = true ∧ s.bridge.facility.contentAt t.path.route = some [9, 2] ∧
      s.bridge.facility.contentAt t.path.route ≠ some (List.take t.length [1, 2, 3]) := by
  have hscene : Scene foreignByte .empty ⟨1⟩ ((Transfer.start ⟨0x1001⟩ ⟨"/r/a"⟩ 2).receive 0 [9])
      (.create ⟨"/r/a"⟩ (.of "a" (.ofText "o") 2 0 false)) threeBytes "o" [1, 2, 3] [asked 1 1, asked 0 1] := by
    refine ⟨by decide +kernel, rfl, by decide +kernel, rfl, rfl, by decide +kernel, by decide, by decide, ⟨rfl, rfl⟩,
      by decide, ?_, ?_⟩
    · refine List.forall_mem_cons.2 ⟨?_, List.forall_mem_cons.2 ⟨?_, nofun⟩⟩
      · exact ⟨rfl, rfl, by decide +kernel, rfl, by decide, by decide⟩
      · exact ⟨rfl, rfl, by decide +kernel, rfl, by decide, by decide⟩
    · intro i hi
      have hi : i < 2 := hi
      by_cases h0 : i = 0
      · exact ⟨asked 0 1, by simp, Nat.zero_le i, by simp only [asked]; omega⟩
      · exact ⟨asked 1 1, by simp, by simp only [asked]; omega, by simp only [asked]; omega⟩
  obtain ⟨sent, hfirst⟩ :=
    steps_serve (s := Delivery.start ⟨Facility.after foreignByte, .empty⟩ [asked 1 1, asked 0 1]) (i := 0) rfl
  obtain ⟨sent, hsecond⟩ := steps_serve (s := ⟨_, [.sending (asked 1 1) [], .fetching (asked 0 1)], sent⟩) (i := 1) rfl
  have hcontent : (Answer.serve 4096 (asked 0 1) (threeBytes.fetched (asked 0 1))
      (Answer.serve 4096 (asked 1 1) (threeBytes.fetched (asked 1 1))
        (⟨Facility.after foreignByte, .empty⟩ : Bridge Facility)).2).2.facility.contentAt (Path.mk "/r/a").route =
      some [9, 2] := by decide +kernel
  exact ⟨_, _, _, hscene, hfirst.trans hsecond, rfl, hcontent, fun h => nomatch hcontent.symm.trans h⟩

end Delivery

end OnDemand
