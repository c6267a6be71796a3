import Mathlib.Data.List.Induction
import OnDemand.Proofs.Facility.Run

/-!
# Where content comes from

A placeholder holds content only from a fill or from a transfer of its file that turned completed. Such a transfer
gives exactly the bytes that were supplied for it.
-/

namespace OnDemand.Facility

/-- The content of the placeholder at `ρ`, if there is one and it holds any. -/
def contentAt (f : Facility) (ρ : Route) : Option Bytes := (f.placeholders.get? ρ).bind (·.content)

variable {f g : Facility} {k : TransferKey} {m : Move} {ms : List Move} {ρ : Route} {data : Bytes}

/-! ## What one move does to a placeholder -/

/-- What the move `m` from `f` to `g` makes of the placeholder at `ρ`. -/
inductive PlaceholderChange (f : Facility) (m : Move) (g : Facility) (ρ : Route) : Prop where
  | kept (h : g.placeholders.get? ρ = f.placeholders.get? ρ)
  | removed (root : Path) (hm : m = .unregister root) (h : g.placeholders.get? ρ = none) (hρ : root.route <+: ρ)
  | created (parent : Path) (new : NewPlaceholder) (hm : m = .create parent new) (hρ : (parent.join new.name).route = ρ)
      (hf : f.placeholders.get? ρ = none) (h : g.placeholders.get? ρ = some (.create (parent.join new.name) new))
  | updated {p : Placeholder} (path : Path) (metadata : Metadata) (identity : FileIdentity)
      (hm : m = .update path metadata identity) (hρ : path.route = ρ) (hp : f.placeholders.get? ρ = some p)
      (h : g.placeholders.get? ρ = some (p.update metadata identity))
  | evicted {p : Placeholder} (path : Path) (hm : m = .dehydrate path) (hp : f.placeholders.get? ρ = some p)
      (h : g.placeholders.get? ρ = some { p with content := none }) (hρ : path.route = ρ)
  | marked {p : Placeholder} (path : Path) (inUse : Bool) (hm : m = .markInUse path inUse)
      (hp : f.placeholders.get? ρ = some p) (h : g.placeholders.get? ρ = some { p with inUse })
  | filled {p : Placeholder} (path : Path) (data : Bytes) (hm : m = .fill path data) (hρ : path.route = ρ)
      (hput : f.putContent path data = .ok g) (hp : f.placeholders.get? ρ = some p)
      (h : g.placeholders.get? ρ = some { p with content := some data })
  | committed {p : Placeholder} {t : Transfer} {data : Bytes} (op : TransferOperation) (hm : m = .execute op)
      (ht : f.Awaits op t) (hd : Carries op data t) (hc : (t.receive op.offset.toNat data).isComplete = true)
      (hg : g = (f.store op.transfer (t.receive op.offset.toNat data)).logged op true)
      (hs : f.taken op.transfer m = [⟨op.offset.toNat, data⟩])
      (hρ : t.path.route = ρ) (hp : f.placeholders.get? ρ = some p)
      (h : g.placeholders.get? ρ = some { p with content := some (t.receive op.offset.toNat data).buffer })

theorem Next.placeholderChange (h : Next f m g) (ρ : Route) : PlaceholderChange f m g ρ := by
  cases h with
  | unregistered root hm =>
    have hget : (f.placeholders.filter fun route _ => !root.route.isPrefixOf route).get? ρ =
        (f.placeholders.get? ρ).filter fun _ => !root.route.isPrefixOf ρ := Table.get?_filter ..
    cases hb : root.route.isPrefixOf ρ with
    | true =>
      exact .removed root hm (by rw [hget, hb]; cases f.placeholders.get? ρ <;> rfl) (List.isPrefixOf_iff_prefix.1 hb)
    | false => exact .kept (by rw [hget, hb]; cases f.placeholders.get? ρ <;> rfl)
  | created parent new hm hnone =>
    by_cases hρ : (parent.join new.name).route = ρ
    · subst hρ
      exact .created parent new hm rfl hnone Table.get?_insert_self
    · exact .kept (Table.get?_insert_of_ne (Ne.symm hρ))
  | updated path metadata identity hm hp =>
    by_cases hρ : path.route = ρ
    · subst hρ
      exact .updated path metadata identity hm rfl hp Table.get?_insert_self
    · exact .kept (Table.get?_insert_of_ne (Ne.symm hρ))
  | evicted path hm hp =>
    by_cases hρ : path.route = ρ
    · subst hρ
      exact .evicted path hm hp Table.get?_insert_self rfl
    · exact .kept (Table.get?_insert_of_ne (Ne.symm hρ))
  | marked path inUse hm =>
    by_cases hρ : path.route = ρ
    · subst hρ
      cases hp : f.placeholders.get? path.route with
      | none => exact .kept (by simp [markInUse, hp])
      | some p => exact .marked path inUse hm hp (by simp [markInUse, hp])
    · exact .kept (Table.get?_modify_of_ne (Ne.symm hρ))
  | filled path data hm hp hd =>
    by_cases hρ : path.route = ρ
    · subst hρ
      exact .filled path data hm rfl (putContent_ok.2 ⟨_, hp, hd, rfl⟩) hp Table.get?_insert_self
    · exact .kept (Table.get?_insert_of_ne (Ne.symm hρ))
  | @received t data op hm ht hd hs =>
    have hg : ((f.store op.transfer (t.receive op.offset.toNat data)).logged op true).placeholders =
        if (t.receive op.offset.toNat data).isComplete then commit f.placeholders (t.receive op.offset.toNat data)
        else f.placeholders := store_placeholders
    by_cases hc : (t.receive op.offset.toNat data).isComplete = true
    · rw [if_pos hc] at hg
      by_cases hρ : t.path.route = ρ
      · have hget : (commit f.placeholders (t.receive op.offset.toNat data)).get? ρ = (f.placeholders.get? ρ).map
            fun p => { p with content := some (t.receive op.offset.toNat data).buffer } := by
          rw [← hρ]
          exact Table.get?_modify_self
        cases hp : f.placeholders.get? ρ with
        | none => exact .kept (by rw [hg, hget, hp]; rfl)
        | some p => exact .committed op hm ht hd hc rfl hs hρ hp (by rw [hg, hget, hp]; rfl)
      · exact .kept (by rw [hg]; exact Table.get?_modify_of_ne fun he => hρ he.symm)
    · rw [if_neg hc] at hg
      exact .kept (by rw [hg])
  | _ => exact .kept rfl

/-! ## The buffers of pending transfers -/

/-- The state after a run in which each transfer has taken the segments `taken k`. -/
structure Traced (taken : TransferKey → List Segment) (f : Facility) : Prop where
  issued : ∀ {k t}, f.transfers.get? k = some t → k.value ≤ f.lastTransfer
  fresh : ∀ {k}, f.lastTransfer < k.value → taken k = []
  made : ∀ {k t}, f.transfers.get? k = some t → t.isPending = true → t.MadeOf (taken k)
  incomplete : ∀ {k t}, f.transfers.get? k = some t → t.isPending = true → 0 < t.length → t.isComplete = false

theorem Traced.next {taken : TransferKey → List Segment} (h : Traced taken f) (hn : Next f m g) :
    Traced (fun k => taken k ++ f.taken k m) g where
  issued hu := hn.issued h.issued hu
  fresh := by
    intro k hk
    have hlt : f.lastTransfer < k.value := Int.lt_of_le_of_lt hn.lastTransfer_le hk
    rw [h.fresh hlt, List.nil_append]
    cases hn.transferChange k with
    | received op hm hop ht hd hg hs =>
      subst hop
      have := h.issued ht.transfer
      omega
    | _ => assumption
  made := by
    intro k u hu hpending
    cases hn.transferChange k with
    | kept hk hs =>
      rw [hk] at hu
      simpa [hs] using h.made hu hpending
    | opened connection path hk hp hg hs =>
      subst hk hg
      have hnone : taken ⟨f.lastTransfer + 1⟩ = [] := h.fresh (by simp only; omega)
      obtain rfl : u = .start connection path _ := by simpa [Facility.opened, @eq_comm _ u] using hu
      simpa [hs, hnone] using Transfer.madeOf_start connection path _
    | failed status ht hp hk hs =>
      rw [hk] at hu
      obtain rfl := Option.some.inj hu
      cases hpending
    | removed ht hp hk hs =>
      rw [hk] at hu
      cases hu
    | @received t data op hm hk ht hd hg hs =>
      subst hk hg
      have hmade := (h.made ht.transfer ht.pending).receive hd.fits
      rw [hs]
      simp only [logged, store_transfers, Table.get?_insert_self, Option.some.injEq] at hu
      split at hu
      · subst hu
        cases hpending
      · subst hu
        exact hmade
  incomplete := by
    intro k u hu hpending hpos
    cases hn.transferChange k with
    | kept hk hs =>
      rw [hk] at hu
      exact h.incomplete hu hpending hpos
    | opened connection path hk hp hg hs =>
      subst hk hg
      obtain rfl : u = .start connection path _ := by simpa [Facility.opened, @eq_comm _ u] using hu
      have hne : ¬(Transfer.start connection path _).length = 0 := Nat.ne_of_gt hpos
      simp only [Transfer.isComplete, Coverage.isComplete, hne, decide_false, Bool.false_or]
      rfl
    | failed status ht hp hk hs =>
      rw [hk] at hu
      obtain rfl := Option.some.inj hu
      cases hpending
    | removed ht hp hk hs =>
      rw [hk] at hu
      cases hu
    | received op hm hk ht hd hg hs =>
      subst hk hg
      simp only [logged, store_transfers, Table.get?_insert_self, Option.some.injEq] at hu
      split at hu
      · subst hu
        cases hpending
      · rename_i hc
        subst hu
        simpa using hc

theorem traced_empty : Traced (fun _ => []) empty where
  issued h := by cases h
  fresh _ := rfl
  made h := by cases h
  incomplete h := by cases h

theorem traced_after (ms : List Move) : Traced (fun k => segments k ms) (after ms) := by
  induction ms using List.reverseRecOn with
  | nil => exact traced_empty
  | append_singleton ms m ih =>
    rw [after_append_singleton]
    simpa using ih.next (next_spec _ m)

/-! ## How content is put -/

/-- `data` is what `segments` make of a file of `length` bytes: each byte is that of the last segment covering its
position, and every position is covered. -/
def Assembled (length : Nat) (segments : List Segment) (data : Bytes) : Prop :=
  data.length = length ∧ ∀ i < length,
    (∃ s ∈ segments, s.offset ≤ i ∧ i < s.offset + s.data.length) ∧ data[i]? = supplied? segments i

/-- In the move `m` after the run `ms` the transfer `k`, until then `t`, turns completed. -/
structure Completes (ms : List Move) (m : Move) (k : TransferKey) (t : Transfer) : Prop where
  before : (after ms).transfers.get? k = some t
  pending : t.phase = .pending
  completed : ((after (ms ++ [m])).transfers.get? k).map Transfer.phase = some .completed

/-- In the move `m` after the run `ms` the placeholder at `ρ` gets `data`: as a fill of its file, or as the whole of a
transfer of its file. -/
inductive Puts (ms : List Move) (m : Move) (ρ : Route) (data : Bytes) : Prop where
  | filled (path : Path) (hm : m = .fill path data) (hρ : path.route = ρ)
      (hput : (after ms).putContent path data = .ok (after (ms ++ [m])))
  | completed {k : TransferKey} {t : Transfer} (h : Completes ms m k t) (hρ : t.path.route = ρ)
      (hdata : Assembled t.length (segments k (ms ++ [m])) data)

/-- The placeholder at `ρ` got `data` somewhere in the run `ms`. -/
def Put (ms : List Move) (ρ : Route) (data : Bytes) : Prop :=
  ∃ before m rest, ms = before ++ m :: rest ∧ Puts before m ρ data

theorem assembled_buffer {t : Transfer} {segments : List Segment} (h : t.MadeOf segments) (hc : t.isComplete = true) :
    Assembled t.length segments t.buffer :=
  ⟨h.size, fun _ hi => ⟨isSome_supplied?.1 (h.buffer_eq hc hi).2, (h.buffer_eq hc hi).1⟩⟩

theorem assembled_receive {t : Transfer} {op : TransferOperation} (ht : (after ms).Awaits op t) (hd : Carries op data t)
    (hs : (after ms).taken op.transfer m = [⟨op.offset.toNat, data⟩])
    (hc : (t.receive op.offset.toNat data).isComplete = true) :
    Assembled t.length (segments op.transfer (ms ++ [m])) (t.receive op.offset.toNat data).buffer := by
  have hmade := ((traced_after ms).made ht.transfer ht.pending).receive hd.fits
  rw [segments_append_singleton, hs]
  exact assembled_buffer hmade hc

/-- Content that a placeholder holds after a move was there before, or was put in this move. -/
theorem contentAt_next (h : (after (ms ++ [m])).contentAt ρ = some data) :
    (after ms).contentAt ρ = some data ∨ Puts ms m ρ data := by
  rw [after_append_singleton] at h
  have hn := next_spec (after ms) m
  unfold contentAt at *
  cases hn.placeholderChange ρ with
  | kept hg => exact .inl (hg ▸ h)
  | removed root hm hg =>
    rw [hg] at h
    cases h
  | created parent new hm hρ hf hg =>
    rw [hg] at h
    cases h
  | updated path metadata identity hm hρ hp hg =>
    rw [hg] at h
    exact .inl (by rw [hp]; exact h)
  | evicted path hm hp hg =>
    rw [hg] at h
    cases h
  | marked path inUse hm hp hg =>
    rw [hg] at h
    exact .inl (by rw [hp]; exact h)
  | filled path content hm hρ hput hp hg =>
    rw [hg] at h
    obtain rfl := Option.some.inj h
    exact .inr (.filled path hm hρ (by rw [after_append_singleton, hput]))
  | @committed p t segment op hm ht hd hc hnext hs hρ hp hg =>
    rw [hg] at h
    obtain rfl := Option.some.inj h
    have hcompletes : Completes ms m op.transfer t :=
      ⟨ht.transfer, by simpa [Transfer.isPending] using ht.pending, by
        rw [after_append_singleton, hnext]
        simp [logged, hc, Transfer.complete]⟩
    exact .inr (.completed hcompletes hρ (assembled_receive ht hd hs hc))

/-- A transfer that turns completed gives its bytes to the placeholder of its file. -/
theorem contentAt_completes {t : Transfer} {p : Placeholder} (h : Completes ms m k t)
    (hp : (after ms).placeholders.get? t.path.route = some p) :
    ∃ data, (after (ms ++ [m])).contentAt t.path.route = some data ∧
      Assembled t.length (segments k (ms ++ [m])) data := by
  have hphase := h.completed
  rw [after_append_singleton] at hphase ⊢
  have hn := next_spec (after ms) m
  cases hn.transferChange k with
  | kept hg hs => simp [hg, h.before, h.pending] at hphase
  | opened connection path hk hp hg hs =>
    rw [hg, hk] at hphase
    simp [opened, Transfer.start] at hphase
  | failed status ht hp hg hs => simp [hg, Transfer.fail] at hphase
  | removed ht hp hg hs => simp [hg] at hphase
  | @received u data op hm hk ht hd hg hs =>
    subst hk
    obtain rfl : t = u := Option.some.inj (h.before.symm.trans ht.transfer)
    by_cases hc : (t.receive op.offset.toNat data).isComplete = true
    · refine ⟨_, ?_, assembled_receive ht hd hs hc⟩
      have hget := Table.get?_modify_self (t := (after ms).placeholders) (k := t.path.route)
        (f := fun p => { p with content := some (t.receive op.offset.toNat data).buffer })
      rw [hg]
      simp only [contentAt, logged, store_placeholders, if_pos hc, commit]
      exact (congrArg (Option.bind · Placeholder.content) hget).trans (by rw [hp]; rfl)
    · simp only [hg, logged, store_transfers, Table.get?_insert_self, if_neg hc, Option.map_some] at hphase
      have hcompleted : t.phase = .completed := Option.some.inj hphase
      rw [h.pending] at hcompleted
      cases hcompleted

theorem put_append_singleton (h : Put ms ρ data) : Put (ms ++ [m]) ρ data := by
  obtain ⟨before, n, rest, rfl, hputs⟩ := h
  exact ⟨before, n, rest ++ [m], by simp, hputs⟩

/-- All content that a placeholder holds after a run was put there in the run. -/
theorem put_of_contentAt (h : (after ms).contentAt ρ = some data) : Put ms ρ data := by
  induction ms using List.reverseRecOn with
  | nil => cases h
  | append_singleton ms m ih =>
    rcases contentAt_next h with h | h
    · exact put_append_singleton (ih h)
    · exact ⟨ms, m, [], rfl, h⟩

end OnDemand.Facility
