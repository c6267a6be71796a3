import OnDemand.Proofs.Facility.Abandoned

/-!
# No partial and no invented content

What a placeholder holds was filled in by hand, or came as the whole of one transfer of its file; what a read
returns is a window of it.
-/

namespace OnDemand.Facility

variable {f g : Facility} {k : TransferKey} {m : Move} {ms : List Move} {ρ : Route} {data : Bytes}

/-! ## Reads -/

theorem put_of_placeholder {path : Path} {p : Placeholder} (hp : (after ms).placeholder? path = some p)
    (hdata : p.content = some data) : Put ms path.route data ∧ (after ms).contentAt path.route = some data := by
  have hcontent : (after ms).contentAt path.route = some data := by
    rw [contentAt, show (after ms).placeholders.get? path.route = some p from hp]
    exact hdata
  exact ⟨put_of_contentAt hcontent, hcontent⟩

theorem put_of_startRead {path : Path} {offset length : Nat} {bytes : Bytes}
    (h : (after ms).startRead path offset length = (.returned (.ok bytes), g)) :
    ∃ data, Put ms path.route data ∧ (after ms).contentAt path.route = some data ∧
      bytes = data.window offset length := by
  obtain ⟨p, data, hp, hdata, hbytes⟩ := startRead_ok h
  obtain ⟨hput, hcontent⟩ := put_of_placeholder hp hdata
  exact ⟨data, hput, hcontent, hbytes⟩

theorem put_of_readResult? {r : Reader} {bytes : Bytes} (h : (after ms).readResult? r = some (.ok bytes)) :
    ∃ data, Put ms r.path.route data ∧ (after ms).contentAt r.path.route = some data ∧
      bytes = data.window r.offset r.length := by
  obtain ⟨-, p, data, hp, hdata, hbytes⟩ := readResult?_ok h
  obtain ⟨hput, hcontent⟩ := put_of_placeholder hp hdata
  exact ⟨data, hput, hcontent, hbytes⟩

/-! ## How a pending transfer goes on -/

/-- In one move a pending transfer stays pending, turns completed or is abandoned. -/
theorem pending_next {t : Transfer} (ht : (after ms).transfers.get? k = some t) (hp : t.phase = .pending) :
    ((after (ms ++ [m])).transfers.get? k).map Transfer.phase = some .pending ∨ Completes ms m k t ∨
      Abandoned k (after (ms ++ [m])) := by
  have hn := next_spec (after ms) m
  have hissued := Int.le_trans ((traced_after ms).issued ht) hn.lastTransfer_le
  cases hn.transferChange k with
  | kept hg hs =>
    refine .inl ?_
    rw [after_append_singleton, hg, ht, Option.map_some, hp]
  | opened connection path hk hpath hg hs =>
    have hle := (traced_after ms).issued ht
    subst hk
    simp only at hle
    omega
  | @failed u status hu hpending hg hs =>
    refine .inr (.inr ?_)
    rw [after_append_singleton]
    refine ⟨hissued, fun v hv => ⟨status, ?_⟩⟩
    obtain rfl := Option.some.inj (hg.symm.trans hv)
    rfl
  | removed hu hpending hg hs =>
    refine .inr (.inr ?_)
    rw [after_append_singleton]
    exact ⟨hissued, fun v hv => nomatch hg.symm.trans hv⟩
  | @received u data op hm hk hu hd hg hs =>
    subst hk
    obtain rfl := Option.some.inj (ht.symm.trans hu.transfer)
    by_cases hc : (t.receive op.offset.toNat data).isComplete = true
    · refine .inr (.inl ⟨ht, hp, ?_⟩)
      rw [after_append_singleton, hg]
      simp [logged, hc, Transfer.complete]
    · refine .inl ?_
      rw [after_append_singleton, hg]
      simp only [logged, store_transfers, Table.get?_insert_self, if_neg hc, Option.map_some]
      exact congrArg some hp

/-! ## The whole -/

/-- After every run: content comes from a fill, or as the whole of a transfer of the file that turns completed, which
gives each byte as the last segment covering it has it; a transfer that does not complete is abandoned, and its segments
make no difference to any placeholder; reads return windows of content put in one of these ways. -/
theorem content_provenance (ms : List Move) :
    (∀ m ρ data, (after (ms ++ [m])).contentAt ρ = some data →
      (after ms).contentAt ρ = some data ∨ Puts ms m ρ data) ∧
    (∀ m k t p, Completes ms m k t → (after ms).placeholders.get? t.path.route = some p →
      ∃ data, (after (ms ++ [m])).contentAt t.path.route = some data ∧
        Assembled t.length (segments k (ms ++ [m])) data) ∧
    (∀ m k t, (after ms).transfers.get? k = some t → t.phase = .pending →
      ((after (ms ++ [m])).transfers.get? k).map Transfer.phase = some .pending ∨ Completes ms m k t ∨
        Abandoned k (after (ms ++ [m]))) ∧
    (∀ k rest, Abandoned k (after ms) →
      (after (without k (ms ++ rest))).placeholders = (after (ms ++ rest)).placeholders) ∧
    (∀ path offset length bytes g, (after ms).startRead path offset length = (.returned (.ok bytes), g) →
      ∃ data, Put ms path.route data ∧ (after ms).contentAt path.route = some data ∧
        bytes = data.window offset length) ∧
    (∀ r bytes, (after ms).readResult? r = some (.ok bytes) →
      ∃ data, Put ms r.path.route data ∧ (after ms).contentAt r.path.route = some data ∧
        bytes = data.window r.offset r.length) := by
  refine ⟨?_, ?_, ?_, ?_, ?_, ?_⟩
  · intro m ρ data h
    exact contentAt_next h
  · intro m k t p h hp
    exact contentAt_completes h hp
  · intro m k t ht hp
    exact pending_next ht hp
  · intro k rest h
    exact placeholders_without h rest
  · intro path offset length bytes g h
    exact put_of_startRead h
  · intro r bytes h
    exact put_of_readResult? h

/-- The first transfer of `/r/a` gets half of the file and is given up; the second one has its end. -/
def halfAndEnd : List Move :=
  [.register ⟨"/r"⟩ (.new "r" "1"), .connect ⟨"/r"⟩ none, .create ⟨"/r"⟩ (.of "a" ⟨[]⟩ 2 0 false),
    .read ⟨"/r/a"⟩ 0 2, .execute (.data ⟨0x1001⟩ ⟨1⟩ [9] 0), .giveUp ⟨⟨"/r/a"⟩, 0, 2, ⟨0x1001⟩, ⟨1⟩, ⟨[]⟩, 2⟩,
    .read ⟨"/r/a"⟩ 0 2, .execute (.data ⟨0x1001⟩ ⟨2⟩ [8] 1)]

/-- A segment for the whole file completes the second transfer, over the byte that it had. -/
theorem content_provenance_halfAndEnd :
    Puts halfAndEnd (.execute (.data ⟨0x1001⟩ ⟨2⟩ [5, 6] 0)) (Path.mk "/r/a").route [5, 6] ∧
      (after (without ⟨1⟩ (halfAndEnd ++ [.execute (.data ⟨0x1001⟩ ⟨2⟩ [5, 6] 0)]))).placeholders =
        (after (halfAndEnd ++ [.execute (.data ⟨0x1001⟩ ⟨2⟩ [5, 6] 0)])).placeholders := by
  obtain ⟨hputs, -, -, hwithout, -, -⟩ := content_provenance halfAndEnd
  have hcontent := hputs (.execute (.data ⟨0x1001⟩ ⟨2⟩ [5, 6] 0)) (Path.mk "/r/a").route [5, 6] (by decide +kernel)
  have hgone : (after halfAndEnd).transfers.get? ⟨1⟩ = none := by decide +kernel
  have habandoned : Abandoned ⟨1⟩ (after halfAndEnd) :=
    ⟨by decide +kernel, fun t ht => nomatch hgone.symm.trans ht⟩
  exact ⟨hcontent.resolve_left (by decide +kernel), hwithout ⟨1⟩ _ habandoned⟩

end OnDemand.Facility
