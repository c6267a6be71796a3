import OnDemand.Proofs.Bridge.Upkeep
import OnDemand.Proofs.Service.Backing

/-!
# Which version a file has

A file that is updated keeps the content that it holds, and a fetch that is under way goes on for the version that was
read. Whatever a placeholder holds is the whole of one version: of the one that it had when the read that opened the
transfer of this content was made, and hence of the current one if it has not been updated since.
-/

namespace OnDemand

open Facility (contentAt)

/-- Nothing is being transferred, and no placeholder has content. -/
structure Facility.Bare (f : Facility) : Prop where
  transfers : ∀ k, f.transfers.get? k = none
  content : ∀ ρ, f.contentAt ρ = none

def Server.Vouched (objects : String → Option Bytes) (raised : List Request) : Server → Prop
  | .fetching r => r ∈ raised
  | .sending r rest => r ∈ raised ∧ ∀ c ∈ rest, r.Vouches objects c

theorem Server.Vouched.mono {objects : String → Option Bytes} {raised raised' : List Request} {v : Server}
    (h : v.Vouched objects raised) (hsub : raised ⊆ raised') : v.Vouched objects raised' := by
  cases v with
  | fetching r => exact hsub h
  | sending r rest => exact ⟨hsub h.1, h.2⟩

/-- `data` is the content of the version that `p` has: its size is part of the object that its identity names. -/
def Placeholder.HasVersion (objects : String → Option Bytes) (p : Placeholder) (data : Bytes) : Prop :=
  ∃ content, p.identity.named objects = some content ∧ p.metadata.byteSize ≤ content.length ∧
    data = content.take p.metadata.byteSize

namespace Daemon

variable {objects : String → Option Bytes} {chunk : Nat} {d : Daemon} {b : Bridge Facility} {m : Move} {ms : List Move}
  {fm : Facility.Move} {r : Request} {ρ : Route} {p : Placeholder} {data : Bytes}

/-! ## What is kept by every move -/

/-- Content, and what is on its way to become content, is what requests have asked for. -/
structure Sound (objects : String → Option Bytes) (d : Daemon) : Prop where
  backed : Backed objects d.raised d.bridge.facility
  servers : ∀ v ∈ d.servers, v.Vouched objects d.raised

theorem Makes.vouched (hs : ∀ v ∈ d.servers, v.Vouched objects d.raised) (h : d.Makes m fm) :
    fm.Vouched objects d.raised := by
  cases m with
  | refuse n =>
    obtain ⟨r, hr, rfl⟩ := h
    exact ⟨r, hr, .failure r.offset .providerNotRunning, trivial, rfl⟩
  | send i =>
    obtain ⟨r, c, rest, hv, rfl⟩ := h
    obtain ⟨hr, hrest⟩ := hs _ hv
    exact ⟨r, hr, c, hrest c List.mem_cons_self, rfl⟩
  | serve n => exact absurd h id
  | fetch i store => exact absurd h id
  | timeOut i => exact absurd h id
  | _ =>
    subst h
    trivial

theorem raised_next (hm : ∀ path offset length, m ≠ .read path offset length) : (d.next chunk m).raised = d.raised := by
  cases m with
  | read path offset length => exact absurd rfl (hm path offset length)
  | refuse n =>
    simp only [next]
    split <;> rfl
  | serve n =>
    simp only [next]
    split <;> rfl
  | fetch i store =>
    simp only [next, plan]
    split <;> rfl
  | timeOut i =>
    simp only [next, plan]
    split <;> rfl
  | send i =>
    simp only [next, sendFrom]
    split
    · split <;> rfl
    · rfl
  | _ => rfl

theorem raise_of_not_opened {raised : List Request} {outcome : ReadStart}
    (h : ∀ reader fetch, outcome ≠ .opened reader fetch) : raise raised outcome = raised := by
  cases outcome with
  | opened reader fetch => exact absurd rfl (h reader fetch)
  | _ => rfl

/-- A read raises no request, or the one for the whole of a file that it has found without content. -/
theorem next_read (chunk : Nat) (path : Path) (offset length : Nat) (d : Daemon) :
    (d.next chunk (.read path offset length)).raised = d.raised ∧
        (d.next chunk (.read path offset length)).bridge.facility = d.bridge.facility ∨
      ∃ p e, d.bridge.facility.Opens path p e ∧
        (d.next chunk (.read path offset length)).raised =
          d.raised ++ [.forWhole e.1 ⟨d.bridge.facility.lastTransfer + 1⟩ path p] ∧
        (d.next chunk (.read path offset length)).bridge.facility =
          d.bridge.facility.opened e.1 path p.metadata.byteSize := by
  rcases Facility.startRead_cases path offset length d.bridge.facility with ⟨hfacility, houtcome⟩ | ⟨p, e, h⟩
  · exact .inl ⟨raise_of_not_opened houtcome, hfacility⟩
  · refine .inr ⟨p, e, h, ?_, ?_⟩
    · simp only [next, Facility.startRead_opens h, raise]
      rfl
    · simp only [next, Facility.startRead_opens h]

theorem raised_subset_read (chunk : Nat) (path : Path) (offset length : Nat) (d : Daemon) :
    d.raised ⊆ (d.next chunk (.read path offset length)).raised := by
  rcases next_read chunk path offset length d with ⟨hraised, -⟩ | ⟨p, e, -, hraised, -⟩
  · rw [hraised]
    exact List.Subset.refl _
  · rw [hraised]
    exact List.subset_append_left ..

theorem Sound.backed_next (h : d.Sound objects) (m : Move) :
    Backed objects (d.next chunk m).raised (d.next chunk m).bridge.facility := by
  -- A read is apart from the other moves: with the transfer it opens, the requests raised grow too.
  by_cases hm : ∃ path offset length, m = .read path offset length
  · obtain ⟨path, offset, length, rfl⟩ := hm
    rcases next_read chunk path offset length d with ⟨hraised, hfacility⟩ | ⟨p, e, -, hraised, hfacility⟩
    · rw [hraised, hfacility]
      exact h.backed
    · rw [hraised, hfacility]
      exact h.backed.raise p e path
  · rw [raised_next fun path offset length he => hm ⟨path, offset, length, he⟩]
    rcases facility_next chunk d m with hfacility | ⟨fm, hmakes, hfacility⟩
    · rw [hfacility]
      exact h.backed
    · rw [hfacility]
      exact h.backed.next (Facility.next_spec _ fm) (hmakes.vouched h.servers)

theorem Sound.servers_plan (h : d.Sound objects) {i : Nat} {fetched : Request → Fetched}
    (hplan : ∀ r, ∀ c ∈ Answer.plan chunk r (fetched r), r.Vouches objects c) :
    ∀ v ∈ (d.plan chunk i fetched).servers, v.Vouched objects d.raised := by
  unfold plan
  split
  · rename_i r hi
    exact forall_mem_set h.servers ⟨h.servers _ (List.mem_of_getElem? hi), hplan r⟩
  · exact h.servers

theorem Sound.servers_sendFrom (h : d.Sound objects) {i : Nat} :
    ∀ v ∈ (d.sendFrom i).servers, v.Vouched objects d.raised := by
  unfold sendFrom
  split
  · rename_i r c rest hi
    obtain ⟨hr, hrest⟩ := h.servers _ (List.mem_of_getElem? hi)
    split
    · exact forall_mem_set h.servers ⟨hr, fun c' hc' => hrest c' (List.mem_cons_of_mem _ hc')⟩
    · exact forall_mem_set h.servers ⟨hr, nofun⟩
  · exact h.servers

/-- A store that is asked shows the objects. -/
def Move.Faithful (objects : String → Option Bytes) : Move → Prop
  | .fetch _ store => store.Shows objects
  | _ => True

theorem Sound.servers_next (h : d.Sound objects) (hm : m.Faithful objects) :
    ∀ v ∈ (d.next chunk m).servers, v.Vouched objects (d.next chunk m).raised := by
  cases m with
  | read path offset length =>
    exact fun v hv => (h.servers v hv).mono (raised_subset_read chunk path offset length d)
  | refuse n =>
    simp only [next]
    split
    · exact h.servers
    · exact h.servers
  | serve n =>
    simp only [next]
    split
    · rename_i r hn
      intro v hv
      rcases List.mem_append.1 hv with hv | hv
      · exact h.servers v hv
      · rw [List.mem_singleton.1 hv]
        exact List.mem_of_getElem? hn
    · exact h.servers
  | fetch i store =>
    rw [raised_next (by simp)]
    exact h.servers_plan fun r c hc => ObjectStore.Shows.vouches hm hc
  | timeOut i =>
    rw [raised_next (by simp)]
    exact h.servers_plan fun r c hc => vouches_of_mem_plan (by simp) hc
  | send i =>
    rw [raised_next (by simp)]
    exact h.servers_sendFrom
  | _ => exact h.servers

theorem Sound.next (h : d.Sound objects) (hm : m.Faithful objects) : (d.next chunk m).Sound objects where
  backed := h.backed_next m
  servers := h.servers_next hm

/-! ## Where a request comes from -/

theorem after_append (ms ms' : List Move) :
    after chunk b (ms ++ ms') = ms'.foldl (Daemon.next chunk) (after chunk b ms) := by
  simp [after]

/-- In the state `d` the move `m` is a read of the file at `ρ` that finds it as `p`, without content, and opens the transfer
`k` to get it. -/
def Asks (d : Daemon) (m : Move) (ρ : Route) (p : Placeholder) (k : TransferKey) : Prop :=
  ∃ path offset length e, m = .read path offset length ∧ path.route = ρ ∧ d.bridge.facility.Opens path p e ∧
    k = ⟨d.bridge.facility.lastTransfer + 1⟩

theorem asks_of_raised (hr : r ∈ (after chunk b ms).raised) :
    ∃ before m rest connection path p, ms = before ++ m :: rest ∧ r = .forWhole connection r.transfer path p ∧
      (after chunk b before).Asks m path.route p r.transfer := by
  -- A request that was raised before the last move keeps its read; only `rest` grows.
  induction ms using List.reverseRecOn with
  | nil => cases hr
  | append_singleton ms m ih =>
    have hold : r ∈ (after chunk b ms).raised → ∃ before m' rest connection path p, ms ++ [m] = before ++ m' :: rest ∧
        r = .forWhole connection r.transfer path p ∧ (after chunk b before).Asks m' path.route p r.transfer := by
      intro hr
      obtain ⟨before, m', rest, connection, path, p, rfl, hr, hasks⟩ := ih hr
      exact ⟨before, m', rest ++ [m], connection, path, p, by simp, hr, hasks⟩
    rw [after_append_singleton] at hr
    by_cases hm : ∃ path offset length, m = .read path offset length
    · obtain ⟨path, offset, length, rfl⟩ := hm
      rcases next_read chunk path offset length (after chunk b ms) with ⟨hraised, -⟩ | ⟨p, e, h, hraised, -⟩
      · rw [hraised] at hr
        exact hold hr
      · rw [hraised] at hr
        rcases List.mem_append.1 hr with hr | hr
        · exact hold hr
        · obtain rfl := List.mem_singleton.1 hr
          exact ⟨ms, _, [], _, path, p, rfl, rfl, path, offset, length, e, rfl, rfl, h, rfl⟩
    · rw [raised_next fun path offset length he => hm ⟨path, offset, length, he⟩] at hr
      exact hold hr

/-! ## Where content comes from -/

/-- In the state `d` the move `m` completes the transfer `k` of the file at `ρ`, which then holds `data`. -/
structure Delivers (chunk : Nat) (d : Daemon) (m : Move) (k : TransferKey) (ρ : Route) (data : Bytes) : Prop where
  pending : ∃ t, d.bridge.facility.transfers.get? k = some t ∧ t.isPending = true ∧ t.path.route = ρ
  completed : ((d.next chunk m).bridge.facility.transfers.get? k).map Transfer.phase = some .completed
  content : (d.next chunk m).bridge.facility.contentAt ρ = some data

/-- After the run `ms` the file at `ρ` holds `data` as the transfer `k` has delivered it: it has held them since, and no
other transfer has delivered anything to it. -/
inductive Holds (chunk : Nat) (b : Bridge Facility) (ρ : Route) (k : TransferKey) (data : Bytes) : List Move → Prop where
  | delivered {ms : List Move} {m : Move} (h : Delivers chunk (after chunk b ms) m k ρ data) :
      Holds chunk b ρ k data (ms ++ [m])
  | kept {ms : List Move} {m : Move} (h : Holds chunk b ρ k data ms)
      (hm : ∀ k' data', ¬Delivers chunk (after chunk b ms) m k' ρ data')
      (hdata : (after chunk b (ms ++ [m])).bridge.facility.contentAt ρ = some data) : Holds chunk b ρ k data (ms ++ [m])

theorem Holds.contentAt {k : TransferKey} (h : Holds chunk b ρ k data ms) :
    (after chunk b ms).bridge.facility.contentAt ρ = some data := by
  cases h with
  | delivered h =>
    rw [after_append_singleton]
    exact h.content
  | kept h hm hdata => exact hdata

theorem raised_subset_next (chunk : Nat) (d : Daemon) (m : Move) : d.raised ⊆ (d.next chunk m).raised := by
  by_cases hm : ∃ path offset length, m = .read path offset length
  · obtain ⟨path, offset, length, rfl⟩ := hm
    exact raised_subset_read chunk path offset length d
  · rw [raised_next fun path offset length he => hm ⟨path, offset, length, he⟩]
    exact List.Subset.refl _

/-- Content that is there after a move was there before or has been delivered. -/
theorem Sound.contentAt_next (h : d.Sound objects) (hdata : (d.next chunk m).bridge.facility.contentAt ρ = some data) :
    d.bridge.facility.contentAt ρ = some data ∨ ∃ k, Delivers chunk d m k ρ data := by
  rcases facility_next chunk d m with hfacility | ⟨fm, hmakes, hfacility⟩
  · exact .inl (hfacility ▸ hdata)
  · have hn := Facility.next_spec d.bridge.facility fm
    rw [← hfacility] at hn
    rcases Facility.contentAt_of_next hn (hmakes.vouched h.servers) hdata with hold | ⟨k, t, ht, hp, hρ, hphase⟩
    · exact .inl hold
    · exact .inr ⟨k, ⟨t, ht, hp, hρ⟩, hphase, hdata⟩

/-- What is delivered has been asked for by the request for this transfer. -/
theorem Sound.gives_of_delivers (h : d.Sound objects) {k : TransferKey} (hd : Delivers chunk d m k ρ data) :
    ∃ r ∈ d.raised, r.transfer = k ∧ r.Gives objects ρ data := by
  obtain ⟨⟨t, ht, hp, rfl⟩, hphase, hdata⟩ := hd
  have hpending : t.phase = .pending := by simpa [Transfer.isPending] using hp
  rcases facility_next chunk d m with hfacility | ⟨fm, hmakes, hfacility⟩
  · simp [hfacility, ht, hpending] at hphase
  · have hn := Facility.next_spec d.bridge.facility fm
    rw [← hfacility] at hn
    exact h.backed.gives_of_completed hn (hmakes.vouched h.servers) ht hp hphase hdata

/-! ## What becomes of a version -/

def SameVersion (p q : Placeholder) : Prop := q.identity = p.identity ∧ q.metadata.byteSize = p.metadata.byteSize

/-- In the state `d` the move `m` is an update of the file at `ρ` that succeeds and gives it the version that `q` has. -/
def Gives (d : Daemon) (ρ : Route) (q : Placeholder) : Move → Prop
  | .update path identity size mtime =>
    path.route = ρ ∧ identity = q.identity ∧ size = q.metadata.byteSize ∧
      (Bridge.update path identity size mtime d.bridge).1.isOk = true
  | _ => False

/-- In the run `ms` from `d` an update has succeeded that gave the file at `ρ` the version that `q` has. -/
def Renewed (chunk : Nat) (d : Daemon) (ms : List Move) (ρ : Route) (q : Placeholder) : Prop :=
  ∃ before m rest, ms = before ++ m :: rest ∧ (before.foldl (next chunk) d).Gives ρ q m

theorem SameVersion.hasVersion {q : Placeholder} (h : SameVersion p q) (hp : p.HasVersion objects data) :
    q.HasVersion objects data := by
  obtain ⟨hidentity, hsize⟩ := h
  rw [Placeholder.HasVersion, hidentity, hsize]
  exact hp

theorem SameVersion.gives {q : Placeholder} (h : SameVersion p q) (hm : d.Gives ρ p m) : d.Gives ρ q m := by
  obtain ⟨hidentity, hsize⟩ := h
  cases m with
  | update path identity size mtime =>
    obtain ⟨hρ, hp, hpsize, hok⟩ := hm
    exact ⟨hρ, hp.trans hidentity.symm, hpsize.trans hsize.symm, hok⟩
  | _ => exact absurd hm id

theorem version_update (hp : d.bridge.facility.placeholders.get? ρ = some p) (path : Path) (identity : FileIdentity)
    (size : Nat) (mtime : Int) :
    ∃ q, (d.next chunk (.update path identity size mtime)).bridge.facility.placeholders.get? ρ = some q ∧
      (SameVersion p q ∨ d.Gives ρ q (.update path identity size mtime)) := by
  have houtcome := Bridge.outcome_update path identity size mtime d.bridge
  simp only [next, Gives]
  generalize (Bridge.update path identity size mtime d.bridge).1 = answer at houtcome ⊢
  generalize (Bridge.update path identity size mtime d.bridge).2 = b' at houtcome ⊢
  cases houtcome with
  | failed failure => exact ⟨p, hp, .inl ⟨rfl, rfl⟩⟩
  | faulted failure status hplanned => exact ⟨p, hp, .inl ⟨rfl, rfl⟩⟩
  | done q hq =>
    rw [Placeholder.tended_updated]
    by_cases hρ : path.route = ρ
    · subst hρ
      exact ⟨q.update (.amendment size mtime) identity, Table.get?_insert_self, .inr ⟨rfl, rfl, rfl, rfl⟩⟩
    · exact ⟨p, (Table.get?_insert_of_ne (Ne.symm hρ)).trans hp, .inl ⟨rfl, rfl⟩⟩

/-- A placeholder stays, with its version unless the move gives it one. -/
theorem version_next (chunk : Nat) (hp : d.bridge.facility.placeholders.get? ρ = some p) (m : Move) :
    ∃ q, (d.next chunk m).bridge.facility.placeholders.get? ρ = some q ∧ (SameVersion p q ∨ d.Gives ρ q m) := by
  by_cases hm : ∃ path identity size mtime, m = .update path identity size mtime
  · obtain ⟨path, identity, size, mtime, rfl⟩ := hm
    exact version_update hp path identity size mtime
  rcases facility_next chunk d m with hfacility | ⟨fm, hmakes, hfacility⟩
  · exact ⟨p, by rw [hfacility, hp], .inl ⟨rfl, rfl⟩⟩
  rw [hfacility]
  cases (Facility.next_spec d.bridge.facility fm).placeholderChange ρ with
  | kept h => exact ⟨p, h.trans hp, .inl ⟨rfl, rfl⟩⟩
  | removed root hfm h =>
    subst hfm
    cases m <;> simp [Makes] at hmakes
  | created parent new hfm hρ hf h => cases hp.symm.trans hf
  | updated path metadata identity hfm hρ hq h =>
    subst hfm
    cases m <;> simp [Makes] at hmakes
    exact absurd ⟨_, _, _, _, rfl⟩ hm
  | evicted path hfm hq h =>
    obtain rfl := Option.some.inj (hp.symm.trans hq)
    exact ⟨_, h, .inl ⟨rfl, rfl⟩⟩
  | marked path inUse hfm hq h =>
    obtain rfl := Option.some.inj (hp.symm.trans hq)
    exact ⟨_, h, .inl ⟨rfl, rfl⟩⟩
  | filled path content hfm hρ hput hq h =>
    obtain rfl := Option.some.inj (hp.symm.trans hq)
    exact ⟨_, h, .inl ⟨rfl, rfl⟩⟩
  | committed op hfm ht hd hc hg hs hρ hq h =>
    obtain rfl := Option.some.inj (hp.symm.trans hq)
    exact ⟨_, h, .inl ⟨rfl, rfl⟩⟩

theorem version_run (chunk : Nat) (hp : d.bridge.facility.placeholders.get? ρ = some p) (ms : List Move) :
    ∃ q, (ms.foldl (next chunk) d).bridge.facility.placeholders.get? ρ = some q ∧
      (SameVersion p q ∨ Renewed chunk d ms ρ q) := by
  -- From the end of the run, because the last update decides.
  induction ms using List.reverseRecOn with
  | nil => exact ⟨p, hp, .inl ⟨rfl, rfl⟩⟩
  | append_singleton ms m ih =>
    obtain ⟨q, hq, hold⟩ := ih
    obtain ⟨q', hq', hnew⟩ := version_next chunk hq m
    refine ⟨q', by simpa using hq', ?_⟩
    rcases hnew with hsame | hgives
    · rcases hold with hold | ⟨before, m', rest, rfl, hgives⟩
      · exact .inl ⟨hsame.1.trans hold.1, hsame.2.trans hold.2⟩
      · exact .inr ⟨before, m', rest ++ [m], by simp, hsame.gives hgives⟩
    · exact .inr ⟨ms, m, [], rfl, hgives⟩

theorem Asks.current {k : TransferKey} (h : d.Asks m ρ p k) (chunk : Nat) (rest : List Move) :
    ∃ q, (rest.foldl (next chunk) (d.next chunk m)).bridge.facility.placeholders.get? ρ = some q ∧
      (SameVersion p q ∨ Renewed chunk (d.next chunk m) rest ρ q) := by
  obtain ⟨path, offset, length, e, rfl, rfl, hopens, -⟩ := h
  refine version_run chunk ?_ rest
  have hread := congrArg Prod.snd (Facility.startRead_opens hopens offset length)
  simp only [next, hread]
  exact hopens.placeholder

/-! ## The whole -/

theorem sound_start (h : b.facility.Bare) : (start b).Sound objects where
  backed := {
    issued := fun {k _} ht => nomatch (h.transfers k).symm.trans ht
    known := nofun
    unique := nofun
    pending := fun {k _} ht => nomatch (h.transfers k).symm.trans ht }
  servers := nofun

theorem sound_after (h : b.facility.Bare) (hms : ∀ m ∈ ms, m.Faithful objects) : (after chunk b ms).Sound objects := by
  induction ms using List.reverseRecOn with
  | nil => exact sound_start h
  | append_singleton ms m ih =>
    rw [after_append_singleton]
    exact (ih fun m' hm' => hms m' (List.mem_append_left _ hm')).next (hms m (by simp))

/-- `data` is what the file at `ρ` got from the transfer that a read of it opened, and the whole of the version that it had
at that read. This is its current version, unless an update that succeeded after that read gave it the current one. -/
def Dated (objects : String → Option Bytes) (chunk : Nat) (b : Bridge Facility) (ms : List Move) (ρ : Route)
    (data : Bytes) : Prop :=
  ∃ before m rest k p q, ms = before ++ m :: rest ∧ (after chunk b before).Asks m ρ p k ∧ Holds chunk b ρ k data ms ∧
    p.HasVersion objects data ∧ (after chunk b ms).bridge.facility.placeholders.get? ρ = some q ∧
    (SameVersion p q ∧ q.HasVersion objects data ∨ Renewed chunk (after chunk b (before ++ [m])) rest ρ q)

theorem holds_of_contentAt (h : b.facility.Bare) (hms : ∀ m ∈ ms, m.Faithful objects)
    (hdata : (after chunk b ms).bridge.facility.contentAt ρ = some data) :
    ∃ r ∈ (after chunk b ms).raised, Holds chunk b ρ r.transfer data ms ∧ r.Gives objects ρ data := by
  induction ms using List.reverseRecOn with
  | nil => cases (h.content ρ).symm.trans hdata
  | append_singleton ms m ih =>
    have hms' : ∀ m' ∈ ms, m'.Faithful objects := fun m' hm' => hms m' (List.mem_append_left _ hm')
    have hsound : (after chunk b ms).Sound objects := sound_after h hms'
    have hnext := hdata
    rw [after_append_singleton] at hnext ⊢
    have hsub := raised_subset_next chunk (after chunk b ms) m
    by_cases hdelivers : ∃ k, Delivers chunk (after chunk b ms) m k ρ data
    · obtain ⟨k, hdelivers⟩ := hdelivers
      obtain ⟨r, hr, rfl, hgives⟩ := hsound.gives_of_delivers hdelivers
      exact ⟨r, hsub hr, .delivered hdelivers, hgives⟩
    · obtain ⟨r, hr, hholds, hgives⟩ := ih hms' ((hsound.contentAt_next hnext).resolve_right hdelivers)
      refine ⟨r, hsub hr, .kept hholds (fun k data' hd => hdelivers ⟨k, ?_⟩) hdata, hgives⟩
      obtain rfl := Option.some.inj (hd.content.symm.trans hnext)
      exact hd

theorem dated_of_contentAt (h : b.facility.Bare) (hms : ∀ m ∈ ms, m.Faithful objects)
    (hdata : (after chunk b ms).bridge.facility.contentAt ρ = some data) : Dated objects chunk b ms ρ data := by
  obtain ⟨r, hr, hholds, hpath, hversion⟩ := holds_of_contentAt h hms hdata
  obtain ⟨before, m, rest, connection, path, p, rfl, hr, hasks⟩ := asks_of_raised hr
  rw [hr] at hpath hversion
  obtain rfl : path.route = ρ := Option.some.inj hpath
  obtain ⟨q, hq, hcurrent⟩ := hasks.current chunk rest
  have hafter : after chunk b (before ++ m :: rest) = rest.foldl (next chunk) ((after chunk b before).next chunk m) := by
    rw [after_append, List.foldl_cons]
  refine ⟨before, m, rest, r.transfer, p, q, rfl, hasks, hholds, hversion, by rw [hafter, hq], ?_⟩
  rw [after_append_singleton]
  exact hcurrent.imp_left fun hsame => ⟨hsame, hsame.hasVersion hversion⟩

/-- Content that was delivered once is not dated any more when it has been evicted or delivered anew. -/
theorem Dated.contentAt (h : Dated objects chunk b ms ρ data) :
    (after chunk b ms).bridge.facility.contentAt ρ = some data := by
  obtain ⟨before, m, rest, k, p, q, -, -, hholds, -⟩ := h
  exact hholds.contentAt

theorem dated_of_placeholder {path : Path} (h : b.facility.Bare) (hms : ∀ m ∈ ms, m.Faithful objects)
    (hp : (after chunk b ms).bridge.facility.placeholder? path = some p) (hdata : p.content = some data) :
    Dated objects chunk b ms path.route data := by
  refine dated_of_contentAt h hms ?_
  rw [contentAt, show (after chunk b ms).bridge.facility.placeholders.get? path.route = some p from hp]
  exact hdata

/-- After every run of a daemon that starts without content, over objects that are written once: what a placeholder holds
is the whole of one version of the file, the one that it had at the read which opened the transfer of this content; the
current one, unless the file has been updated since. Reads return windows of such content. -/
theorem content_is_of_version_asked_for (chunk : Nat) (h : b.facility.Bare) (hms : ∀ m ∈ ms, m.Faithful objects) :
    (∀ ρ data, (after chunk b ms).bridge.facility.contentAt ρ = some data ↔ Dated objects chunk b ms ρ data) ∧
    (∀ path offset length bytes g,
      (after chunk b ms).bridge.facility.startRead path offset length = (.returned (.ok bytes), g) →
      ∃ data, Dated objects chunk b ms path.route data ∧ bytes = data.window offset length) ∧
    (∀ reader bytes, (after chunk b ms).bridge.facility.readResult? reader = some (.ok bytes) →
      ∃ data, Dated objects chunk b ms reader.path.route data ∧ bytes = data.window reader.offset reader.length) := by
  refine ⟨fun ρ data => ⟨dated_of_contentAt h hms, Dated.contentAt⟩, ?_, ?_⟩
  · intro path offset length bytes g hread
    obtain ⟨p, data, hp, hdata, hbytes⟩ := Facility.startRead_ok hread
    exact ⟨data, dated_of_placeholder h hms hp hdata, hbytes⟩
  · intro reader bytes hread
    obtain ⟨-, p, data, hp, hdata, hbytes⟩ := Facility.readResult?_ok hread
    exact ⟨data, dated_of_placeholder h hms hp hdata, hbytes⟩

def twoVersions : ObjectStore := Store.Memory.store (.ofList [("v1", [1, 2]), ("v2", [3, 4])])

def joined : Bridge Facility := ⟨Facility.after [.register ⟨"/r"⟩ (.new "r" "1"), .connect ⟨"/r"⟩ none], .empty⟩

theorem joined_bare : joined.facility.Bare := ⟨fun _ => rfl, fun _ => rfl⟩

/-- The first version is created, read and served. -/
def firstVersion : List Move :=
  [.create ⟨"/r"⟩ "a" (.ofText "v1") 2 0 false, .read ⟨"/r/a"⟩ 0 2, .serve 0, .fetch 0 twoVersions, .send 0]

theorem firstVersion_faithful : ∀ m ∈ firstVersion, m.Faithful twoVersions.shown := by
  intro m hm
  simp only [firstVersion, List.mem_cons, List.not_mem_nil, or_false] at hm
  rcases hm with rfl | rfl | rfl | rfl | rfl
  case inr.inr.inr.inl => exact twoVersions.shows_shown
  all_goals trivial

/-- Without an update, the placeholder has the content of its version. -/
theorem content_is_of_version_asked_for_first :
    ∃ q, (after 4096 joined firstVersion).bridge.facility.placeholders.get? (Path.mk "/r/a").route = some q ∧
      q.HasVersion twoVersions.shown [1, 2] := by
  obtain ⟨hcontent, -, -⟩ := content_is_of_version_asked_for 4096 joined_bare firstVersion_faithful
  obtain ⟨before, read, rest, k, p, q, hms, -, -, -, hq, hversion⟩ :=
    (hcontent (Path.mk "/r/a").route [1, 2]).1 (by decide +kernel)
  refine ⟨q, hq, (hversion.resolve_right fun ⟨before', m, rest', hrest, hgives⟩ => ?_).2⟩
  have hmem : m ∈ firstVersion := by
    rw [hms, hrest]
    simp
  simp only [firstVersion, List.mem_cons, List.not_mem_nil, or_false] at hmem
  rcases hmem with rfl | rfl | rfl | rfl | rfl <;> exact hgives

/-- Then the file is updated to its second version. -/
def secondVersion : List Move := firstVersion ++ [.update ⟨"/r/a"⟩ (.ofText "v2") 2 0]

/-- After the update the placeholder has the second version's identity and size, but still the first version's content,
and this is what a read returns. -/
theorem stale_after_update :
    joined.facility.Bare ∧ (∀ m ∈ secondVersion, m.Faithful twoVersions.shown) ∧
      ∃ q, (after 4096 joined secondVersion).bridge.facility.placeholder? ⟨"/r/a"⟩ = some q ∧
        q.identity = .ofText "v2" ∧ q.content = some [1, 2] ∧ ¬q.HasVersion twoVersions.shown [1, 2] ∧
        ((after 4096 joined secondVersion).bridge.facility.startRead ⟨"/r/a"⟩ 0 2).1 = .returned (.ok [1, 2]) := by
  refine ⟨joined_bare, fun m hm => ?_, ?_⟩
  · rcases List.mem_append.1 hm with hm | hm
    · exact firstVersion_faithful m hm
    · rw [List.mem_singleton.1 hm]
      trivial
  have hq : (after 4096 joined secondVersion).bridge.facility.placeholder? ⟨"/r/a"⟩ =
      some { (Placeholder.create ⟨"/r/a"⟩ (.of "a" (.ofText "v1") 2 0 false)).update (.amendment 2 0) (.ofText "v2") with
        content := some [1, 2] } := by decide +kernel
  refine ⟨_, hq, rfl, rfl, ?_, ?_⟩
  · rintro ⟨content, hnamed, -, hdata⟩
    have hsecond : (FileIdentity.ofText "v2").named twoVersions.shown = some [3, 4] := by decide +kernel
    obtain rfl := Option.some.inj (hsecond.symm.trans hnamed)
    exact absurd hdata (by decide)
  · simp only [Facility.startRead, hq]
    rfl

end Daemon

end OnDemand
