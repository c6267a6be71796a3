import Mathlib.Logic.Relation
import OnDemand.Hydration.Channel
import OnDemand.Proofs.Bridge.ClosedKeys
import OnDemand.Proofs.Hydration.Plan

/-!
# Callbacks that race a connect

Connecting and disconnecting are two steps each, one at the facility and one at the live table, and anything may come
between them. The facility issues no key that is in use, but it may issue one again that has been released. Until the
live table learns of that, it still takes the key for the one that was closed: this is the one way in which an answer on
a connection that nobody is closing does not get to the facility.
-/

namespace OnDemand

/-- How far a connection has come: accepted by the facility, recorded in the live table, retired from it, released by
the facility. -/
inductive Strand.Stage where
  | accepted
  | opened
  | closing
  | closed
deriving DecidableEq

namespace Strand.Stage

@[simp] def isOpened : Strand.Stage → Bool
  | opened => true
  | accepted | closing | closed => false

@[simp] def isRetired : Strand.Stage → Bool
  | accepted | opened => false
  | closing | closed => true

end Strand.Stage

structure Strand where
  connection : OpenConnection
  stage : Strand.Stage

def Strand.key (s : Strand) : ConnectionKey := s.connection.key

/-- A bridge, and all connections that its facility ever accepted on it. -/
structure Race (σ : Type) where
  bridge : Bridge σ
  strands : List Strand

namespace Race

variable {σ : Type} {u v : Race σ} {before after : List Strand} {c : OpenConnection}
  {stage stage' : Strand.Stage} {key : ConnectionKey} {p : Strand.Stage → Bool}

/-! ## Connections with the same key -/

def has (p : Strand.Stage → Bool) (key : ConnectionKey) (strands : List Strand) : Bool :=
  strands.any fun s => s.key = key && p s.stage

theorem has_iff {strands : List Strand} : has p key strands = true ↔ ∃ s ∈ strands, s.key = key ∧ p s.stage = true := by
  simp [has]

@[simp] theorem has_middle :
    has p key (before ++ ⟨c, stage⟩ :: after) = (has p key (before ++ after) || (c.key = key && p stage)) := by
  simp only [has, List.any_append, List.any_cons, Strand.key]
  cases p stage <;> grind

/-- One of two connections with the same key has been closed. -/
def Apart (s t : Strand) : Prop := s.key = t.key → s.stage = .closed ∨ t.stage = .closed

theorem closed_of_apart (h : (before ++ ⟨c, stage⟩ :: after).Pairwise Apart) (hstage : stage ≠ .closed) :
    ∀ s ∈ before ++ after, s.key = c.key → s.stage = .closed := by
  intro s hs hkey
  rw [List.pairwise_append, List.pairwise_cons] at h
  obtain ⟨-, ⟨hafter, -⟩, hbefore⟩ := h
  rcases List.mem_append.1 hs with hs | hs
  · exact (hbefore s hs _ List.mem_cons_self hkey).resolve_right hstage
  · exact (hafter s hs hkey.symm).resolve_left hstage

theorem has_of_apart (h : (before ++ ⟨c, stage⟩ :: after).Pairwise Apart) (hstage : stage ≠ .closed)
    (hp : p .closed = false) : has p c.key (before ++ after) = false := by
  refine Bool.eq_false_iff.2 fun hhas => ?_
  obtain ⟨s, hs, hkey, hps⟩ := has_iff.1 hhas
  rw [closed_of_apart h hstage s hs hkey, hp] at hps
  cases hps

theorem pairwise_restage (h : (before ++ ⟨c, stage⟩ :: after).Pairwise Apart) (hstage : stage ≠ .closed) :
    (before ++ ⟨c, stage'⟩ :: after).Pairwise Apart := by
  have hothers := closed_of_apart h hstage
  rw [List.pairwise_append, List.pairwise_cons] at h ⊢
  obtain ⟨hbefore, ⟨-, hafter⟩, hacross⟩ := h
  refine ⟨hbefore, ⟨fun s hs hkey => ?_, hafter⟩, fun s hs t ht => ?_⟩
  · exact .inr (hothers s (List.mem_append_right _ hs) hkey.symm)
  · rcases List.mem_cons.1 ht with rfl | ht
    · exact fun hkey => .inl (hothers s (List.mem_append_left _ hs) hkey)
    · exact hacross s hs t (List.mem_cons_of_mem _ ht)

/-! ## What the live table knows -/

/-- The live table takes a key for closed if a connection with it has been retired and none is recorded. -/
structure Linked (u : Race σ) : Prop where
  apart : u.strands.Pairwise Apart
  isClosed : ∀ key,
    u.bridge.live.isClosed key = (has Strand.Stage.isRetired key u.strands && !has Strand.Stage.isOpened key u.strands)

theorem Linked.of_live (h : Linked u) {b : Bridge σ} (hlive : b.live = u.bridge.live) : Linked { u with bridge := b } :=
  ⟨h.apart, by simpa [hlive] using h.isClosed⟩

theorem Linked.accept (h : Linked u) {b : Bridge σ} (hlive : b.live = u.bridge.live)
    (hfree : ∀ s ∈ u.strands, s.key = c.key → s.stage = .closed) : Linked ⟨b, u.strands ++ [⟨c, .accepted⟩]⟩ := by
  refine ⟨?_, fun key => by simp [hlive, h.isClosed]⟩
  rw [List.pairwise_append]
  refine ⟨h.apart, List.pairwise_singleton _ _, fun s hs t ht hkey => .inl ?_⟩
  obtain rfl := List.mem_singleton.1 ht
  exact hfree s hs hkey

/-- The facility has issued the key of `s` once more, and the live table still has it as closed. -/
def Reissued (u : Race σ) (s : Strand) : Prop :=
  s.stage = .accepted ∧ ∃ t ∈ u.strands, t.key = s.key ∧ t.stage = .closed

variable (h : Linked u)

include h

theorem Linked.record (hu : u.strands = before ++ ⟨c, .accepted⟩ :: after) :
    Linked ⟨u.bridge.record c.key c.root, before ++ ⟨c, .opened⟩ :: after⟩ := by
  refine ⟨pairwise_restage (hu ▸ h.apart) (by decide), fun key => ?_⟩
  rw [Bridge.record, LiveTable.isClosed_record, h.isClosed, hu]
  by_cases hkey : c.key = key <;> simp [hkey, @eq_comm _ key]

theorem Linked.retire (hu : u.strands = before ++ ⟨c, .opened⟩ :: after) :
    Linked ⟨{ u.bridge with live := u.bridge.live.retire c.key }, before ++ ⟨c, .closing⟩ :: after⟩ := by
  have hapart : (before ++ ⟨c, .opened⟩ :: after).Pairwise Apart := hu ▸ h.apart
  refine ⟨pairwise_restage hapart (by decide), fun key => ?_⟩
  rw [LiveTable.isClosed_retire, h.isClosed, hu]
  by_cases hkey : c.key = key
  · subst hkey
    simp [has_of_apart (p := Strand.Stage.isOpened) hapart (by decide) rfl]
  · simp [hkey, @eq_comm _ key]

theorem Linked.release (hu : u.strands = before ++ ⟨c, .closing⟩ :: after) {b : Bridge σ}
    (hlive : b.live = u.bridge.live) : Linked ⟨b, before ++ ⟨c, .closed⟩ :: after⟩ := by
  refine ⟨pairwise_restage (hu ▸ h.apart) (by decide), fun key => ?_⟩
  rw [hlive, h.isClosed, hu]
  simp

theorem Linked.isClosed_iff {s : Strand} (hs : s ∈ u.strands) (hstage : s.stage.isRetired = false) :
    u.bridge.live.isClosed s.key = true ↔ Reissued u s := by
  obtain ⟨c, stage⟩ := s
  obtain ⟨before, after, hu⟩ := List.append_of_mem hs
  have hapart : (before ++ ⟨c, stage⟩ :: after).Pairwise Apart := hu ▸ h.apart
  have hnot : stage ≠ .closed := fun he => by simp [he] at hstage
  have hothers := closed_of_apart hapart hnot
  rw [h.isClosed, hu, has_middle, has_middle, Strand.key, has_of_apart (p := Strand.Stage.isOpened) hapart hnot rfl]
  cases stage with
  | opened => simp [Reissued]
  | closing => cases hstage
  | closed => cases hstage
  | accepted =>
    simp only [Strand.Stage.isRetired, Strand.Stage.isOpened, Bool.and_false, Bool.or_false, Bool.not_false,
      Bool.and_true, has_iff, Reissued, hu, true_and]
    constructor
    · rintro ⟨t, ht, hkey, -⟩
      refine ⟨t, ?_, hkey, hothers t ht hkey⟩
      simp only [List.mem_append, List.mem_cons] at ht ⊢
      exact ht.imp_right .inr
    · rintro ⟨t, ht, hkey, hclosed⟩
      refine ⟨t, ?_, hkey, by rw [hclosed]⟩
      simp only [List.mem_append, List.mem_cons] at ht ⊢
      refine ht.imp_right fun ht => ht.resolve_left ?_
      rintro rfl
      cases hclosed

omit h

/-! ## The steps of a race -/

variable [CloudFacility σ]

def start (facility : σ) : Race σ := ⟨.ofFacility facility, []⟩

inductive Step (u : Race σ) : Race σ → Prop where
  | accept (root : Path) (handler : Handler) {key : ConnectionKey} {b : Bridge σ}
      (hb : Bridge.accept root handler u.bridge = (.ok key, b))
      (hfree : ∀ s ∈ u.strands, s.key = key → s.stage = .closed) :
      Step u ⟨b, u.strands ++ [⟨⟨key, root⟩, .accepted⟩]⟩
  | refuse (root : Path) (handler : Handler) {e : ConnectionError} {b : Bridge σ}
      (hb : Bridge.accept root handler u.bridge = (.error e, b)) : Step u { u with bridge := b }
  | record {before after : List Strand} (c : OpenConnection) (hu : u.strands = before ++ ⟨c, .accepted⟩ :: after) :
      Step u ⟨u.bridge.record c.key c.root, before ++ ⟨c, .opened⟩ :: after⟩
  | retire {before after : List Strand} (c : OpenConnection) (hu : u.strands = before ++ ⟨c, .opened⟩ :: after) :
      Step u ⟨{ u.bridge with live := u.bridge.live.retire c.key }, before ++ ⟨c, .closing⟩ :: after⟩
  | release {before after : List Strand} (c : OpenConnection) (hu : u.strands = before ++ ⟨c, .closing⟩ :: after) :
      Step u ⟨(Bridge.ask (CloudFacility.disconnectRoot c.key) id u.bridge).2, before ++ ⟨c, .closed⟩ :: after⟩
  /-- A callback arrives at any channel, which fails it at once if it has no room. -/
  | callback (info : FetchInfo) (channel : Channel) : Step u { u with bridge := (channel.fetch info u.bridge).2 }
  | deliver (connection : ConnectionKey) (transfer : TransferKey) (c : Completion) :
      Step u { u with bridge := (u.bridge.deliver connection transfer c).2 }
  /-- Something happens at the facility without the bridge. -/
  | elsewhere (facility : σ) : Step u { u with bridge := { u.bridge with facility } }

abbrev Steps : Race σ → Race σ → Prop := Relation.ReflTransGen Step

/-- To connect without interference is to accept and to record. -/
theorem steps_connect (root : Path) (handler : Handler) {b : Bridge σ}
    (hb : Bridge.connect root handler u.bridge = (.ok c, b))
    (hfree : ∀ s ∈ u.strands, s.key = c.key → s.stage = .closed) :
    Steps u ⟨b, u.strands ++ [⟨c, .opened⟩]⟩ := by
  unfold Bridge.connect at hb
  cases ha : Bridge.accept root handler u.bridge with
  | mk answer b' =>
    rw [ha] at hb
    cases answer with
    | error e => exact nomatch (Prod.mk.inj hb).1
    | ok key =>
      obtain ⟨hc, rfl⟩ := Prod.mk.inj hb
      obtain rfl := Except.ok.inj hc
      exact .head (.accept root handler ha hfree) (.single (.record ⟨key, root⟩ rfl))

/-- To disconnect without interference is to retire and to release. -/
theorem steps_disconnect (hu : u.strands = before ++ ⟨c, .opened⟩ :: after) :
    Steps u ⟨u.bridge.disconnect c, before ++ ⟨c, .closed⟩ :: after⟩ :=
  .head (.retire c hu) (.single (.release c rfl))

theorem live_fetch (info : FetchInfo) (channel : Channel) (b : Bridge σ) : (channel.fetch info b).2.live = b.live := by
  unfold Channel.fetch
  dsimp only
  split
  · rfl
  · simp [Channel.reject, Answer.refuse_bridge]

theorem Linked.step (h : Linked u) (hstep : Step u v) : Linked v := by
  cases hstep with
  | accept root handler hb hfree => exact h.accept (congrArg (·.2.live) hb).symm hfree
  | refuse root handler hb => exact h.of_live (congrArg (·.2.live) hb).symm
  | record c hu => exact h.record hu
  | retire c hu => exact h.retire hu
  | release c hu => exact h.release hu rfl
  | callback info channel => exact h.of_live (live_fetch ..)
  | deliver connection transfer c => exact h.of_live Bridge.live_deliver
  | elsewhere facility => exact h.of_live rfl

theorem linked_of_steps {facility : σ} (h : Steps (start facility) u) : Linked u := by
  induction h with
  | refl => exact ⟨.nil, fun _ => rfl⟩
  | tail _ hstep ih => exact ih.step hstep

end Race

namespace Race

variable {σ : Type} [CloudFacility σ]

/-- While nobody is closing a connection that the facility has accepted, an answer on it gets to the facility, unless
its key has been issued once more and is not recorded yet: then the live table alone makes the answer stale. -/
theorem answered_iff_not_reissued {facility : Recorded σ} {u : Race (Recorded σ)} (hu : Steps (start facility) u)
    {s : Strand} (hs : s ∈ u.strands) (hstage : s.stage = .accepted ∨ s.stage = .opened) {k : TransferKey}
    {offset : Nat} {act : Bridge.Act (Recorded σ) TransferError Unit} {op : TransferOperation}
    (h : Bridge.Answers s.key k offset act op) (hfits : Word.fitsSigned offset = true) :
    (Bridge.Reaches act op u.bridge ↔ ¬Reissued u s) ∧
      ((act u.bridge).1 = .error (.staleKey s.key k none) ↔ Reissued u s) := by
  have hclosed : u.bridge.live.isClosed s.key = true ↔ Reissued u s :=
    (linked_of_steps hu).isClosed_iff hs (by rcases hstage with h | h <;> rw [h] <;> rfl)
  cases hlive : u.bridge.live.isClosed s.key with
  | true =>
    have hr := hclosed.1 hlive
    obtain ⟨hact, hreaches⟩ := h.of_closed hlive
    simp [hr, hreaches, hact, hfits]
  | false =>
    have hr : ¬Reissued u s := fun hr => by simp [hclosed.2 hr] at hlive
    obtain ⟨hact, hreaches⟩ := h.of_not_closed hlive
    simp [hr, hact, hreaches hfits]

end Race

/-! ## A facility with one key -/

/-- A facility that has one connection key, and issues it whenever it is free. -/
structure OneKey where
  isOpen : Bool
deriving DecidableEq

namespace OneKey

def key : ConnectionKey := ⟨1⟩

def connection : OpenConnection := ⟨key, ⟨"/r"⟩⟩

instance : CloudFacility OneKey where
  registerRoot _ _ f := (.ok (), f)
  unregisterRoot _ f := (.ok (), f)
  connectRoot _ _ f := if f.isOpen then (.error .alreadyConnected, f) else (.ok key, ⟨true⟩)
  disconnectRoot k f := if k = key then (.ok (), ⟨false⟩) else (.error .notFound, f)
  createPlaceholder _ _ f := (.ok (), f)
  updatePlaceholder _ _ _ f := (.ok (), f)
  dehydratePlaceholder _ f := (.ok (), f)
  executeTransfer op f := if f.isOpen ∧ op.connection = key then (.ok (), f) else (.error .providerNotRunning, f)

end OneKey

namespace Race

def firstAccepted : Race (Recorded OneKey) :=
  ⟨(Bridge.accept ⟨"/r"⟩ none (.ofFacility ⟨⟨false⟩, []⟩)).2, [⟨OneKey.connection, .accepted⟩]⟩

theorem steps_firstAccepted : Steps (start ⟨⟨false⟩, []⟩) firstAccepted :=
  .single (.accept ⟨"/r"⟩ none rfl nofun)

theorem answered_iff_not_reissued_firstAccepted :
    Steps (start ⟨⟨false⟩, []⟩) firstAccepted ∧ (⟨OneKey.connection, .accepted⟩ : Strand) ∈ firstAccepted.strands ∧
      Bridge.Reaches (Bridge.complete OneKey.key ⟨1⟩ [7] 0) (.data OneKey.key ⟨1⟩ [7] 0) firstAccepted.bridge := by
  refine ⟨steps_firstAccepted, List.mem_singleton.2 rfl, ?_⟩
  have hmem : (⟨OneKey.connection, .accepted⟩ : Strand) ∈ firstAccepted.strands := List.mem_singleton.2 rfl
  refine (answered_iff_not_reissued steps_firstAccepted hmem (.inl rfl) (.complete [7]) (by decide)).1.2 ?_
  rintro ⟨-, t, ht, -, hclosed⟩
  obtain rfl := List.mem_singleton.1 ht
  cases hclosed

def connected : Race (Recorded OneKey) :=
  ⟨(Bridge.connect ⟨"/r"⟩ none (.ofFacility ⟨⟨false⟩, []⟩)).2, [⟨OneKey.connection, .opened⟩]⟩

theorem steps_connected : Steps (start ⟨⟨false⟩, []⟩) connected :=
  steps_connect ⟨"/r"⟩ none rfl (by simp [start])

/-- Connected and disconnected, and accepted for the second time. -/
def secondAccepted : Race (Recorded OneKey) :=
  ⟨(Bridge.accept ⟨"/r"⟩ none (connected.bridge.disconnect OneKey.connection)).2,
    [⟨OneKey.connection, .closed⟩, ⟨OneKey.connection, .accepted⟩]⟩

theorem steps_secondAccepted : Steps (start ⟨⟨false⟩, []⟩) secondAccepted := by
  have hopened : connected.strands = [] ++ ⟨OneKey.connection, .opened⟩ :: [] := rfl
  have hclosed := steps_connected.trans (steps_disconnect hopened)
  exact hclosed.tail (.accept ⟨"/r"⟩ none rfl fun s hs _ => by rw [List.mem_singleton.1 hs])

/-- The facility has the second connection open, and is not asked about an answer on it. -/
theorem reissued_key_is_held_back :
    Steps (start ⟨⟨false⟩, []⟩) secondAccepted ∧ (⟨OneKey.connection, .accepted⟩ : Strand) ∈ secondAccepted.strands ∧
      secondAccepted.bridge.facility.facility.isOpen = true ∧
      (Bridge.complete OneKey.key ⟨1⟩ [7] 0 secondAccepted.bridge).1 = .error (.staleKey OneKey.key ⟨1⟩ none) ∧
      ¬Bridge.Reaches (Bridge.complete OneKey.key ⟨1⟩ [7] 0) (.data OneKey.key ⟨1⟩ [7] 0) secondAccepted.bridge := by
  have hanswers : Bridge.Answers OneKey.key ⟨1⟩ 0
      (Bridge.complete OneKey.key ⟨1⟩ [7] 0 : Bridge.Act (Recorded OneKey) _ _) (.data OneKey.key ⟨1⟩ [7] 0) :=
    .complete [7]
  have hclosed : secondAccepted.bridge.live.isClosed OneKey.key = true := rfl
  obtain ⟨hact, hreaches⟩ := hanswers.of_closed hclosed
  exact ⟨steps_secondAccepted, by simp [secondAccepted], rfl, by rw [hact]; rfl, hreaches⟩

end Race

end OnDemand
