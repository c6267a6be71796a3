import Mathlib.Data.List.Induction
import OnDemand.Proofs.Bridge.Run

/-!
# Keys of closed connections

A key is closed in a run if a connection with it has been closed, and no connection has been opened with it since. The
live table knows these keys exactly. Answers on them are held back; answers on a key that was never opened are not.
-/

namespace OnDemand.Usage

variable {σ ε : Type} [CloudFacility σ] {react : ε → σ → σ} {facility : σ} {ms : List (Move ε)} {m : Move ε}
  {key : ConnectionKey}

/-- In the run `ms` a connection with `key` was closed, and the facility has not issued `key` again since. -/
def ClosedIn (react : ε → σ → σ) (facility : σ) (key : ConnectionKey) (ms : List (Move ε)) : Prop :=
  ∃ before m rest c, ms = before ++ m :: rest ∧ (after react facility before).closes? m = some c ∧ c.key = key ∧
    ∀ d ∈ ((after react facility before).next react m).opened react rest, d.key ≠ key

theorem closedIn_append_singleton :
    ClosedIn react facility key (ms ++ [m]) ↔
      (∃ c, (after react facility ms).closes? m = some c ∧ c.key = key) ∨
        ClosedIn react facility key ms ∧ ∀ d, (after react facility ms).opens? m = some d → d.key ≠ key := by
  constructor
  · rintro ⟨before, n, rest, c, hms, hc, hkey, hrest⟩
    rcases List.eq_nil_or_concat rest with rfl | ⟨rest, l, rfl⟩
    · obtain ⟨rfl, hm⟩ := List.append_inj' hms rfl
      obtain rfl := List.singleton_inj.1 hm
      exact .inl ⟨c, hc, hkey⟩
    · rw [List.concat_eq_append, ← List.cons_append, ← List.append_assoc] at hms
      obtain ⟨rfl, hm⟩ := List.append_inj' hms rfl
      obtain rfl := List.singleton_inj.1 hm
      rw [List.concat_eq_append, opened_append_singleton] at hrest
      refine .inr ⟨⟨before, n, rest, c, rfl, hc, hkey, fun d hd => hrest d (List.mem_append_left _ hd)⟩, fun d hd => ?_⟩
      refine hrest d (List.mem_append_right _ ?_)
      simpa [after] using hd
  · rintro (⟨c, hc, hkey⟩ | ⟨⟨before, n, rest, c, rfl, hc, hkey, hrest⟩, hm⟩)
    · exact ⟨ms, m, [], c, rfl, hc, hkey, by simp [opened]⟩
    · refine ⟨before, n, rest ++ [m], c, by simp, hc, hkey, fun d hd => ?_⟩
      rw [opened_append_singleton] at hd
      rcases List.mem_append.1 hd with hd | hd
      · exact hrest d hd
      · exact hm d (by simpa [after] using hd)

/-- The live table holds exactly the keys that are closed in the run so far. -/
theorem isClosed_iff (ms : List (Move ε)) :
    (after react facility ms).bridge.live.isClosed key = true ↔ ClosedIn react facility key ms := by
  induction ms using List.reverseRecOn with
  | nil => simp [after, start, Bridge.ofFacility, LiveTable.empty, LiveTable.isClosed, ClosedIn]
  | append_singleton ms m ih =>
    rw [after_append_singleton, closedIn_append_singleton]
    cases linkage react (after react facility ms) m with
    | kept ho hc hlive hheld => simp [hlive, ih, ho, hc]
    | opened c ho hc hlive hheld => simp [hlive, LiveTable.isClosed_record, ih, ho, hc, @eq_comm _ key]
    | closed c ho hc hmem hlive hheld => simp [hlive, LiveTable.isClosed_retire, ih, ho, hc, @eq_comm _ key]

/-- What the live table has as open is not closed. -/
theorem isClosed_of_root? {root : Path} (h : (after react facility ms).bridge.live.root? key = some root) :
    (after react facility ms).bridge.live.isClosed key = false := by
  induction ms using List.reverseRecOn with
  | nil => cases h
  | append_singleton ms m ih =>
    rw [after_append_singleton] at h ⊢
    cases linkage react (after react facility ms) m with
    | kept ho hc hlive hheld =>
      rw [hlive] at h ⊢
      exact ih h
    | opened c ho hc hlive hheld =>
      rw [hlive, LiveTable.root?_record] at h
      rw [hlive, LiveTable.isClosed_record]
      split at h
      · rename_i hkey
        simp [hkey]
      · simp [ih h]
    | closed c ho hc hmem hlive hheld =>
      rw [hlive, LiveTable.root?_retire] at h
      rw [hlive, LiveTable.isClosed_retire]
      split at h
      · cases h
      · rename_i hkey
        simp [hkey, ih h]

/-- What is held, and what has been closed, was opened before. -/
structure Known (u : Usage σ) (cs : List OpenConnection) : Prop where
  held : ∀ c ∈ u.held, c ∈ cs
  closed : ∀ key, u.bridge.live.isClosed key = true → ∃ c ∈ cs, c.key = key

theorem Known.next {u : Usage σ} {cs : List OpenConnection} (h : Known u cs) (m : Move ε) :
    Known (u.next react m) (cs ++ (u.opens? m).toList) := by
  cases linkage react u m with
  | kept ho hc hlive hheld => exact ⟨by simpa [ho, hheld] using h.held, by simpa [ho, hlive] using h.closed⟩
  | opened c ho hc hlive hheld =>
    refine ⟨fun d hd => ?_, fun key hkey => ?_⟩
    · rw [hheld] at hd
      simp only [ho, Option.toList_some]
      exact (List.mem_append.1 hd).elim (fun hd => List.mem_append_left _ (h.held d hd)) (List.mem_append_right _)
    · rw [hlive, LiveTable.isClosed_record, Bool.and_eq_true] at hkey
      obtain ⟨d, hd, hdkey⟩ := h.closed key hkey.1
      exact ⟨d, List.mem_append_left _ hd, hdkey⟩
  | closed c ho hc hmem hlive hheld =>
    simp only [ho, Option.toList_none, List.append_nil]
    refine ⟨fun d hd => h.held d (hheld hd), fun key hkey => ?_⟩
    rw [hlive, LiveTable.isClosed_retire, Bool.or_eq_true, decide_eq_true_eq] at hkey
    rcases hkey with rfl | hkey
    · exact ⟨c, h.held c hmem, rfl⟩
    · exact h.closed key hkey

theorem known_after (ms : List (Move ε)) : Known (after react facility ms) ((start facility).opened react ms) := by
  induction ms using List.reverseRecOn with
  | nil => exact ⟨nofun, nofun⟩
  | append_singleton ms m ih =>
    rw [after_append_singleton, opened_append_singleton]
    exact ih.next m

end OnDemand.Usage

namespace OnDemand.Bridge

variable {σ : Type} [CloudFacility σ] {b : Bridge (Recorded σ)} {connection : ConnectionKey} {k : TransferKey}
  {offset : Nat} {act : Act (Recorded σ) TransferError Unit} {op : TransferOperation}

/-- On a closed key nothing is asked and nothing changes; an offset out of range is noticed first. -/
theorem Answers.of_closed (h : Answers connection k offset act op) (hclosed : b.live.isClosed connection = true) :
    act b = (.error (if Word.fitsSigned offset then .staleKey connection k none
      else .rejected connection k .invalidArgument), b) ∧ ¬Reaches act op b := by
  obtain ⟨c, rfl, rfl, rfl⟩ := h.exists_deliver
  refine ⟨?_, by simp [reaches_deliver, asks, hclosed]⟩
  cases hfits : Word.fitsSigned c.offset with
  | false => exact deliver_beyond hfits
  | true => exact deliver_closed hfits hclosed

theorem Answers.of_not_closed (h : Answers connection k offset act op) (hopen : b.live.isClosed connection = false) :
    (act b).1 ≠ .error (.staleKey connection k none) ∧ (Word.fitsSigned offset = true → Reaches act op b) := by
  obtain ⟨c, rfl, rfl, rfl⟩ := h.exists_deliver
  refine ⟨fun hstale => ?_, fun hfits => reaches_deliver.2 (asks_iff.2 ⟨hfits, hopen⟩)⟩
  cases hfits : Word.fitsSigned c.offset with
  | false => simp [deliver_beyond hfits] at hstale
  | true =>
    rw [deliver_eq_staleKey_none hfits, hopen] at hstale
    cases hstale

end OnDemand.Bridge

namespace OnDemand.Usage

variable {σ ε : Type} [CloudFacility σ]

/-- However connections come and go, an answer on a closed key changes nothing and is stale, or rejected for its offset;
an answer on a key that was never opened goes to the facility. -/
theorem closed_keys_are_stale (react : ε → Recorded σ → Recorded σ) (facility : Recorded σ) (ms : List (Move ε))
    (key : ConnectionKey) (k : TransferKey) (offset : Nat) (act : Bridge.Act (Recorded σ) TransferError Unit)
    (op : TransferOperation) (h : Bridge.Answers key k offset act op) :
    (ClosedIn react facility key ms →
      act (after react facility ms).bridge =
          (.error (if Word.fitsSigned offset then .staleKey key k none else .rejected key k .invalidArgument),
            (after react facility ms).bridge) ∧
        ¬Bridge.Reaches act op (after react facility ms).bridge) ∧
    ((∀ c ∈ (start facility).opened react ms, c.key ≠ key) →
      (act (after react facility ms).bridge).1 ≠ .error (.staleKey key k none) ∧
        (Word.fitsSigned offset = true → Bridge.Reaches act op (after react facility ms).bridge)) := by
  refine ⟨fun hclosed => h.of_closed ((isClosed_iff ms).2 hclosed), fun hnever => h.of_not_closed ?_⟩
  refine Bool.eq_false_iff.2 fun hclosed => ?_
  obtain ⟨c, hc, hkey⟩ := (known_after ms).closed key hclosed
  exact hnever c hc hkey

/-- The facility makes the move `m` without the bridge, so that nothing is noted. -/
def unnoted (m : Facility.Move) (r : Recorded Facility) : Recorded Facility := { r with facility := r.facility.next m }

def connectedOnce : List (Move Facility.Move) :=
  [.elsewhere (.register ⟨"/r"⟩ (.new "r" "1")), .connect ⟨"/r"⟩ none, .close 0]

theorem closed_keys_are_stale_connectedOnce :
    Bridge.Answers ⟨0x1001⟩ ⟨1⟩ 0 (Bridge.complete ⟨0x1001⟩ ⟨1⟩ [7] 0 : Bridge.Act (Recorded Facility) _ _)
        (.data ⟨0x1001⟩ ⟨1⟩ [7] 0) ∧
      ClosedIn unnoted ⟨.empty, []⟩ ⟨0x1001⟩ connectedOnce ∧
      Bridge.complete ⟨0x1001⟩ ⟨1⟩ [7] 0 (after unnoted ⟨.empty, []⟩ connectedOnce).bridge =
        (.error (.staleKey ⟨0x1001⟩ ⟨1⟩ none), (after unnoted ⟨.empty, []⟩ connectedOnce).bridge) := by
  have hclosed : ClosedIn unnoted ⟨.empty, []⟩ ⟨0x1001⟩ connectedOnce :=
    ⟨connectedOnce.take 2, .close 0, [], ⟨⟨0x1001⟩, ⟨"/r"⟩⟩, rfl, by decide +kernel, rfl, nofun⟩
  have hstale := closed_keys_are_stale unnoted ⟨.empty, []⟩ connectedOnce ⟨0x1001⟩ ⟨1⟩ 0 _ _ (.complete [7])
  exact ⟨.complete [7], hclosed, (hstale.1 hclosed).1⟩

end OnDemand.Usage
