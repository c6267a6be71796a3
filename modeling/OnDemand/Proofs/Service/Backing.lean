import OnDemand.Proofs.Service.Daemon

/-!
# Every byte is backed by a request

The objects of the store are written once. Whatever a pending transfer has received, and whatever a placeholder
holds, is part of the object named by the request that was raised for the transfer.
-/

namespace OnDemand

/-- The object that an identity names. -/
def FileIdentity.named (objects : String → Option Bytes) (identity : FileIdentity) : Option Bytes :=
  identity.text?.bind objects

/-- What the store returns are the objects, as far as they are there. -/
def ObjectStore.Shows (store : ObjectStore) (objects : String → Option Bytes) : Prop :=
  ∀ object bytes, store.read object = .ok bytes → objects object = some bytes

def ObjectStore.shown (store : ObjectStore) (object : String) : Option Bytes := (store.read object).toOption

theorem ObjectStore.shows_shown (store : ObjectStore) : store.Shows store.shown := by
  intro object bytes h
  rw [shown, h]
  rfl

/-- Data sent for `r` is part of the object that `r` names. -/
def Request.Vouches (objects : String → Option Bytes) (r : Request) : Completion → Prop
  | .data offset bytes =>
    ∃ content, r.identity.named objects = some content ∧ (Completion.data offset bytes).PieceOf content
  | .failure _ _ => True

variable {objects : String → Option Bytes} {raised : List Request} {f g : Facility} {fm : Facility.Move} {r : Request}
  {k : TransferKey} {ρ : Route} {data : Bytes} {chunk : Nat}

/-! ## What the store returns -/

theorem ObjectStore.Shows.contentRange {store : ObjectStore} (h : store.Shows objects) {identity : FileIdentity}
    {offset length : Nat} {bytes : Bytes} (hrange : store.contentRange identity offset length = .ok bytes)
    (hne : bytes ≠ []) :
    ∃ content, identity.named objects = some content ∧ offset + bytes.length ≤ content.length ∧
      ∀ j < bytes.length, bytes[j]? = content[offset + j]? := by
  obtain ⟨object, size, htext, -, hif⟩ := ObjectStore.contentRange_ok.1 hrange
  split at hif
  · exact absurd hif hne
  · obtain ⟨content, hread, rfl⟩ := hif
    refine ⟨content, by rw [FileIdentity.named, htext]; exact h object content hread, ?_, fun j hj => ?_⟩
    · have hpos := List.length_pos_iff.2 hne
      rw [Bytes.length_window] at hpos ⊢
      omega
    · rw [Bytes.length_window] at hj
      rw [Bytes.window, List.getElem?_take_of_lt (by omega), List.getElem?_drop]

theorem vouches_of_mem_plan {fetched : Fetched}
    (h : ∀ bytes, fetched = .data bytes → bytes ≠ [] → ∃ content, r.identity.named objects = some content ∧
      r.offset + bytes.length ≤ content.length ∧ ∀ j < bytes.length, bytes[j]? = content[r.offset + j]?)
    {c : Completion} (hc : c ∈ Answer.plan chunk r fetched) : r.Vouches objects c := by
  cases c with
  | failure offset status => trivial
  | data offset data =>
    cases fetched with
    | failed => simp [Answer.plan] at hc
    | timedOut => simp [Answer.plan] at hc
    | data bytes =>
      cases bytes with
      | nil => simp [Answer.plan] at hc
      | cons first rest =>
        obtain ⟨content, hnamed, hfits, hbytes⟩ := h _ rfl (List.cons_ne_nil first rest)
        simp only [Answer.plan, List.mem_append] at hc
        rcases hc with hc | hc
        · refine ⟨content, hnamed, (Answer.pieceOf_of_mem_segments ?_ (fun j hj => ?_) hc).1⟩
          · rw [List.length_take]
            omega
          · rw [List.length_take] at hj
            rw [List.getElem?_take_of_lt (by omega)]
            exact hbytes j (by omega)
        · unfold Answer.shortfall at hc
          split at hc <;> simp at hc

theorem ObjectStore.Shows.vouches {store : ObjectStore} (h : store.Shows objects) {c : Completion}
    (hc : c ∈ Answer.plan chunk r (store.fetched r)) : r.Vouches objects c := by
  refine vouches_of_mem_plan (fun bytes hbytes hne => ?_) hc
  unfold ObjectStore.fetched at hbytes
  split at hbytes
  · rename_i bytes' hrange
    obtain rfl := Fetched.data.inj hbytes
    exact h.contentRange hrange hne
  · cases hbytes

/-! ## The facility -/

/-- `data` is the whole of what the request `r` was raised for: a file at `ρ`. -/
structure Request.Gives (objects : String → Option Bytes) (r : Request) (ρ : Route) (data : Bytes) : Prop where
  path : r.path.map (fun text => (Path.mk text).route) = some ρ
  named : ∃ content, r.identity.named objects = some content ∧ r.fileSize ≤ content.length ∧
    data = content.take r.fileSize

/-- The request for the whole of the file `p` at `path`. -/
def Request.forWhole (connection : ConnectionKey) (k : TransferKey) (path : Path) (p : Placeholder) : Request :=
  ⟨connection, k, p.identity, 0, p.metadata.byteSize, p.metadata.byteSize, some path.text⟩

/-- What `t` has received is what the requests for it name. -/
structure Collects (objects : String → Option Bytes) (raised : List Request) (k : TransferKey) (t : Transfer) : Prop where
  canonical : t.received.Canonical t.length
  size : t.buffer.length = t.length
  requested : ∀ r ∈ raised, r.transfer = k → r.fileSize = t.length ∧ r.path = some t.path.text
  bytes : ∀ r ∈ raised, r.transfer = k → ∀ i, t.received.covers i →
    ∃ content, r.identity.named objects = some content ∧ i < content.length ∧ t.buffer[i]? = content[i]?

/-- The facility, beside the requests that have been raised on it. -/
structure Backed (objects : String → Option Bytes) (raised : List Request) (f : Facility) : Prop where
  issued : ∀ {k t}, f.transfers.get? k = some t → k.value ≤ f.lastTransfer
  known : ∀ r ∈ raised, r.transfer.value ≤ f.lastTransfer
  unique : ∀ r ∈ raised, ∀ r' ∈ raised, r.transfer = r'.transfer → r = r'
  pending : ∀ {k t}, f.transfers.get? k = some t → t.isPending = true → Collects objects raised k t

theorem collects_start {connection : ConnectionKey} {path : Path} {length : Nat}
    (h : ∀ r ∈ raised, r.transfer = k → r.fileSize = length ∧ r.path = some path.text) :
    Collects objects raised k (.start connection path length) where
  canonical := Coverage.canonical_nil length
  size := by simp [Transfer.start]
  requested := h
  bytes r hr hk i hi := by
    obtain ⟨span, hspan, -⟩ := hi
    cases hspan

theorem Collects.receive {t : Transfer} {offset : Nat} {bytes : Bytes} (h : Collects objects raised k t) (hr : r ∈ raised)
    (hk : r.transfer = k) (hunique : ∀ r' ∈ raised, r'.transfer = k → r' = r)
    (hvouches : r.Vouches objects (.data offset bytes)) (hfits : offset + bytes.length ≤ t.length) :
    Collects objects raised k (t.receive offset bytes) where
  canonical := Transfer.canonical_receive h.canonical hfits
  size := Transfer.length_buffer_receive h.size hfits
  requested := h.requested
  bytes r' hr' hk' i hi := by
    obtain rfl := hunique r' hr' hk'
    obtain ⟨content, hnamed, hwithin, hpiece⟩ := hvouches
    rw [Transfer.getElem?_buffer_receive h.size hfits]
    split
    · rename_i hin
      refine ⟨content, hnamed, by omega, ?_⟩
      rw [hpiece (i - offset) (by omega), Nat.add_sub_cancel' hin.1]
    · rename_i hout
      exact h.bytes r' hr' hk' i (((Transfer.covers_receive h.canonical i).1 hi).resolve_left hout)

theorem Collects.gives {t : Transfer} (h : Collects objects raised k t) (hr : r ∈ raised) (hk : r.transfer = k)
    (hnamed : ∃ content, r.identity.named objects = some content) (hc : t.isComplete = true) :
    r.Gives objects t.path.route t.buffer := by
  obtain ⟨hsize, hpath⟩ := h.requested r hr hk
  obtain ⟨content, hcontent⟩ := hnamed
  -- The bytes at the covered positions are those of this object.
  have hbytes : ∀ i < t.length, i < content.length ∧ t.buffer[i]? = content[i]? := by
    intro i hi
    obtain ⟨content', hcontent', hlt, hget⟩ := h.bytes r hr hk i (Coverage.covers_of_isComplete hc hi)
    obtain rfl := Option.some.inj (hcontent.symm.trans hcontent')
    exact ⟨hlt, hget⟩
  have hlong : t.length ≤ content.length := by
    by_cases hpos : t.length = 0
    · omega
    · have hlast := (hbytes (t.length - 1) (by omega)).1
      omega
  refine ⟨by rw [hpath]; rfl, content, hcontent, by rwa [hsize], List.ext_getElem? fun i => ?_⟩
  rw [hsize]
  by_cases hi : i < t.length
  · rw [List.getElem?_take_of_lt hi]
    exact (hbytes i hi).2
  · rw [List.getElem?_eq_none (by rw [h.size]; omega), List.getElem?_eq_none (by rw [List.length_take]; omega)]

/-- A segment that the facility accepts is a piece that was sent. -/
theorem carries_operation {connection : ConnectionKey} {c : Completion} {bytes : Bytes} {t : Transfer}
    (hd : Facility.Carries (c.operation connection k) bytes t) :
    ∃ offset, c = .data offset bytes ∧ (c.operation connection k).offset.toNat = offset := by
  cases c with
  | failure offset status =>
    have hbuffer := hd.buffer
    simp [Completion.operation, TransferOperation.failure] at hbuffer
  | data offset bytes' =>
    obtain rfl := Option.some.inj hd.buffer
    exact ⟨offset, rfl, rfl⟩

/-- The move is no fill, and what it sends to a transfer is sent for a request and vouched for by it. -/
def Facility.Move.Vouched (objects : String → Option Bytes) (raised : List Request) : Facility.Move → Prop
  | .execute op => ∃ r ∈ raised, ∃ c, r.Vouches objects c ∧ op = c.operation r.connection r.transfer
  | .fill _ _ => False
  | _ => True

theorem Backed.pending_next (h : Backed objects raised f) (hn : Facility.Next f fm g) (hfm : fm.Vouched objects raised)
    {u : Transfer} (hu : g.transfers.get? k = some u) (hp : u.isPending = true) : Collects objects raised k u := by
  cases hn.transferChange k with
  | kept hk hs =>
    rw [hk] at hu
    exact h.pending hu hp
  | opened connection path hk hplaceholder hg hs =>
    subst hk hg
    obtain rfl : u = .start connection path _ := by simpa [Facility.opened, @eq_comm _ u] using hu
    refine collects_start fun r hr hk => ?_
    have hknown := h.known r hr
    rw [hk] at hknown
    simp only at hknown
    omega
  | failed status ht hpending hk hs =>
    rw [hk] at hu
    obtain rfl := Option.some.inj hu
    cases hp
  | removed ht hpending hk hs =>
    rw [hk] at hu
    cases hu
  | @received t bytes op hm hk ht hd hg hs =>
    subst hm hg
    obtain ⟨r, hr, c, hvouches, rfl⟩ := hfm
    rw [Completion.operation_transfer] at hk
    subst hk
    obtain ⟨offset, rfl, hoffset⟩ := carries_operation hd
    have hget := ht.transfer
    rw [Completion.operation_transfer] at hget
    have hfits := hd.fits
    rw [hoffset] at hu hfits
    simp only [Facility.logged, Facility.store_transfers, Table.get?_insert_self, Option.some.injEq] at hu
    split at hu
    · subst hu
      cases hp
    · subst hu
      exact (h.pending hget ht.pending).receive hr rfl (fun r' hr' hk => h.unique r' hr' r hr hk) hvouches hfits

/-- Content that is there after a move was there before, unless the move is a fill or completes a transfer of the file. -/
theorem Facility.contentAt_of_next (hn : Facility.Next f fm g) (hfm : fm.Vouched objects raised)
    (hdata : g.contentAt ρ = some data) :
    f.contentAt ρ = some data ∨
      ∃ k t, f.transfers.get? k = some t ∧ t.isPending = true ∧ t.path.route = ρ ∧
        (g.transfers.get? k).map Transfer.phase = some .completed := by
  unfold Facility.contentAt at *
  cases hn.placeholderChange ρ with
  | kept hg => exact .inl (hg ▸ hdata)
  | removed root hm hg =>
    rw [hg] at hdata
    cases hdata
  | created parent new hm hρ hf hg =>
    rw [hg] at hdata
    cases hdata
  | updated path metadata identity hm hρ hp hg =>
    rw [hg] at hdata
    exact .inl (by rw [hp]; exact hdata)
  | evicted path hm hp hg =>
    rw [hg] at hdata
    cases hdata
  | marked path inUse hm hp hg =>
    rw [hg] at hdata
    exact .inl (by rw [hp]; exact hdata)
  | filled path content hm hρ hput hp hg =>
    subst hm
    exact absurd hfm id
  | @committed p t bytes op hm ht hd hc hnext hs hρ hp hg =>
    refine .inr ⟨op.transfer, t, ht.transfer, ht.pending, hρ, ?_⟩
    rw [hnext]
    simp [Facility.logged, hc, Transfer.complete]

/-- A transfer that a move completes was asked for by a request, and leaves the file with what that request names. -/
theorem Backed.gives_of_completed (h : Backed objects raised f) (hn : Facility.Next f fm g)
    (hfm : fm.Vouched objects raised) {t : Transfer} (ht : f.transfers.get? k = some t) (hp : t.isPending = true)
    (hphase : (g.transfers.get? k).map Transfer.phase = some .completed) (hdata : g.contentAt t.path.route = some data) :
    ∃ r ∈ raised, r.transfer = k ∧ r.Gives objects t.path.route data := by
  have hpending : t.phase = .pending := by simpa [Transfer.isPending] using hp
  cases hn.transferChange k with
  | kept hk hs => simp [hk, ht, hpending] at hphase
  | opened connection path hk hplaceholder hg hs =>
    rw [hg, hk] at hphase
    simp [Facility.opened, Transfer.start] at hphase
  | failed status hu hp hk hs => simp [hk, Transfer.fail] at hphase
  | removed hu hp hk hs => simp [hk] at hphase
  | @received u bytes op hm hk hu hd hg hs =>
    subst hm hg
    obtain ⟨r, hr, c, hvouches, rfl⟩ := hfm
    rw [Completion.operation_transfer] at hk
    subst hk
    obtain ⟨offset, rfl, hoffset⟩ := carries_operation hd
    have hget := hu.transfer
    rw [Completion.operation_transfer] at hget
    obtain rfl := Option.some.inj (ht.symm.trans hget)
    have hfits := hd.fits
    rw [hoffset] at hphase hdata hfits
    have hcollects := (h.pending ht hp).receive hr rfl (fun r' hr' hk => h.unique r' hr' r hr hk) hvouches hfits
    simp only [Facility.logged, Facility.store_transfers, Table.get?_insert_self, Option.map_some] at hphase
    split at hphase
    · rename_i hc
      obtain ⟨content, hnamed, -⟩ := hvouches
      refine ⟨r, hr, rfl, ?_⟩
      have hbuffer : data = (t.receive offset bytes).buffer := by
        simp only [Facility.contentAt, Facility.logged, Facility.store_placeholders, if_pos hc, Facility.commit] at hdata
        obtain ⟨p, hget, hcontent⟩ := Option.bind_eq_some_iff.1 hdata
        have hmodify := Table.get?_modify_self (t := f.placeholders) (k := t.path.route)
          (f := fun p => { p with content := some (t.receive offset bytes).buffer })
        obtain ⟨q, -, rfl⟩ := Option.map_eq_some_iff.1 (hmodify.symm.trans hget)
        exact (Option.some.inj hcontent).symm
      rw [hbuffer]
      exact hcollects.gives hr rfl ⟨content, hnamed⟩ hc
    · have hcompleted : t.phase = .completed := Option.some.inj hphase
      rw [hpending] at hcompleted
      cases hcompleted

theorem Backed.next (h : Backed objects raised f) (hn : Facility.Next f fm g) (hfm : fm.Vouched objects raised) :
    Backed objects raised g where
  issued hu := hn.issued h.issued hu
  known r hr := Int.le_trans (h.known r hr) hn.lastTransfer_le
  unique := h.unique
  pending hu hp := h.pending_next hn hfm hu hp

theorem Backed.raise (h : Backed objects raised f) (p : Placeholder) (e : ConnectionKey × Connection) (path : Path) :
    Backed objects (raised ++ [.forWhole e.1 ⟨f.lastTransfer + 1⟩ path p]) (f.opened e.1 path p.metadata.byteSize) := by
  have hnew : ∀ r ∈ raised, r.transfer ≠ ⟨f.lastTransfer + 1⟩ := by
    intro r hr he
    have hknown := h.known r hr
    rw [he] at hknown
    simp only at hknown
    omega
  refine ⟨fun {k t} ht => ?_, fun r hr => ?_, fun r₁ h₁ r₂ h₂ he => ?_, fun {k t} ht hp => ?_⟩
  · rcases Table.get?_insert_cases ht with ⟨rfl, -⟩ | ⟨-, ht⟩
    · exact Int.le_refl _
    · exact Int.le_trans (h.issued ht) (by simp only [Facility.opened]; omega)
  · rcases List.mem_append.1 hr with hr | hr
    · exact Int.le_trans (h.known r hr) (by simp only [Facility.opened]; omega)
    · rw [List.mem_singleton.1 hr]
      exact Int.le_refl _
  · simp only [List.mem_append, List.mem_singleton] at h₁ h₂
    rcases h₁ with h₁ | rfl <;> rcases h₂ with h₂ | rfl
    · exact h.unique r₁ h₁ r₂ h₂ he
    · exact absurd he (hnew r₁ h₁)
    · exact absurd he.symm (hnew r₂ h₂)
    · rfl
  · rcases Table.get?_insert_cases ht with ⟨rfl, rfl⟩ | ⟨hne, ht⟩
    · refine collects_start fun r hr hk => ?_
      rcases List.mem_append.1 hr with hr | hr
      · exact absurd hk (hnew r hr)
      · rw [List.mem_singleton.1 hr]
        exact ⟨rfl, rfl⟩
    · have hcollects := h.pending ht hp
      have hmem : ∀ r ∈ raised ++ [Request.forWhole e.1 ⟨f.lastTransfer + 1⟩ path p], r.transfer = k → r ∈ raised := by
        intro r hr hk
        rcases List.mem_append.1 hr with hr | hr
        · exact hr
        · rw [List.mem_singleton.1 hr] at hk
          exact absurd hk.symm hne
      exact ⟨hcollects.canonical, hcollects.size, fun r hr hk => hcollects.requested r (hmem r hr hk) hk,
        fun r hr hk => hcollects.bytes r (hmem r hr hk) hk⟩

end OnDemand
