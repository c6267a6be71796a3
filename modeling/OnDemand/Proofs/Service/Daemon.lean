import OnDemand.Bridge.Placeholder
import OnDemand.Proofs.Bridge.Response
import OnDemand.Proofs.Hydration.Delivery

/-!
# The daemon at work

What happens to a root while it is served, in steps that can come in any order: applications read, placeholders are
created, updated and evicted, and the fetches that reads have raised are refused or served piece by piece. Nothing is
kept of the order in which requests wait or of who serves them.
-/

namespace OnDemand

/-- A bridge, the requests that reads have raised on it so far, and those being served. -/
structure Daemon where
  bridge : Bridge Facility
  raised : List Request
  servers : List Server

namespace Daemon

inductive Move where
  | read (path : Path) (offset length : Nat)
  | giveUp (reader : Reader)
  | markInUse (path : Path) (inUse : Bool)
  /-- From now on searches may meet other connections and transfers first. -/
  | rearrange (pick : Nat)
  | create (parent : Path) (name : String) (identity : FileIdentity) (size : Nat) (mtime : Int) (directory : Bool)
  | update (path : Path) (identity : FileIdentity) (size : Nat) (mtime : Int)
  | dehydrate (path : Path)
  /-- The request with this number is failed without being served. -/
  | refuse (number : Nat)
  | serve (number : Nat)
  /-- A server asks the store, which is now `store`. -/
  | fetch (server : Nat) (store : ObjectStore)
  /-- A server has waited for the store too long. -/
  | timeOut (server : Nat)
  | send (server : Nat)

def start (b : Bridge Facility) : Daemon := ⟨b, [], []⟩

/-- The requests with the one that a read has raised, if it has raised one. -/
def raise (raised : List Request) : ReadStart → List Request
  | .opened _ fetch => raised ++ [.ofFetch fetch.info]
  | _ => raised

def sendFrom (i : Nat) (d : Daemon) : Daemon :=
  match d.servers[i]? with
  | some (.sending r (c :: rest)) =>
    match d.bridge.deliver r.connection r.transfer c with
    | (.ok (), b) => { d with bridge := b, servers := d.servers.set i (.sending r rest) }
    | (.error _, b) => { d with bridge := b, servers := d.servers.set i (.sending r []) }
  | _ => d

/-- The server, if it is about to ask the store, has got `fetched`. -/
def plan (chunk i : Nat) (fetched : Request → Fetched) (d : Daemon) : Daemon :=
  match d.servers[i]? with
  | some (.fetching r) => { d with servers := d.servers.set i (.sending r (Answer.plan chunk r (fetched r))) }
  | _ => d

/-- The next state; a move that is not possible changes nothing. -/
def next (chunk : Nat) (d : Daemon) : Move → Daemon
  | .read path offset length =>
    let (outcome, facility) := d.bridge.facility.startRead path offset length
    { d with bridge := { d.bridge with facility }, raised := raise d.raised outcome }
  | .giveUp reader => { d with bridge := { d.bridge with facility := d.bridge.facility.next (.giveUp reader) } }
  | .markInUse path inUse => { d with bridge := { d.bridge with facility := d.bridge.facility.markInUse path inUse } }
  | .rearrange pick => { d with bridge := { d.bridge with facility := d.bridge.facility.rearrange pick } }
  | .create parent name identity size mtime directory =>
    { d with bridge := (Bridge.create parent name identity size mtime directory d.bridge).2 }
  | .update path identity size mtime => { d with bridge := (Bridge.update path identity size mtime d.bridge).2 }
  | .dehydrate path => { d with bridge := (Bridge.dehydrate path d.bridge).2 }
  | .refuse n =>
    match d.raised[n]? with
    | some r => { d with bridge := (Answer.refuse r d.bridge).2 }
    | none => d
  | .serve n =>
    match d.raised[n]? with
    | some r => { d with servers := d.servers ++ [.fetching r] }
    | none => d
  | .fetch i store => d.plan chunk i store.fetched
  | .timeOut i => d.plan chunk i fun _ => .timedOut
  | .send i => d.sendFrom i

/-- The state after a run from `b`, with segments of `chunk` bytes. -/
def after (chunk : Nat) (b : Bridge Facility) (ms : List Move) : Daemon := ms.foldl (next chunk) (start b)

variable {chunk : Nat} {d : Daemon} {b : Bridge Facility} {m : Move} {ms : List Move} {fm : Facility.Move}

@[simp] theorem after_append_singleton (ms : List Move) (m : Move) :
    after chunk b (ms ++ [m]) = (after chunk b ms).next chunk m := by
  simp [after]

/-! ## What reaches the facility -/

/-- The move of `d` can make the move `fm` of the facility. -/
def Makes (d : Daemon) : Move → Facility.Move → Prop
  | .read path offset length, fm => fm = .read path offset length
  | .giveUp reader, fm => fm = .giveUp reader
  | .markInUse path inUse, fm => fm = .markInUse path inUse
  | .rearrange pick, fm => fm = .rearrange pick
  | .create parent name identity size mtime directory, fm => fm = .create parent (.of name identity size mtime directory)
  | .update path identity size mtime, fm => fm = .update path (.amendment size mtime) identity
  | .dehydrate path, fm => fm = .dehydrate path
  | .refuse _, fm => ∃ r ∈ d.raised,
      fm = .execute ((Completion.failure r.offset .providerNotRunning).operation r.connection r.transfer)
  | .send _, fm => ∃ r c rest, .sending r (c :: rest) ∈ d.servers ∧ fm = .execute (c.operation r.connection r.transfer)
  | _, _ => False

/-- A move leaves the facility as it is, or makes one move of it. -/
theorem facility_next (chunk : Nat) (d : Daemon) (m : Move) :
    (d.next chunk m).bridge.facility = d.bridge.facility ∨
      ∃ fm, d.Makes m fm ∧ (d.next chunk m).bridge.facility = d.bridge.facility.next fm := by
  cases m with
  | read path offset length => exact .inr ⟨_, rfl, rfl⟩
  | giveUp reader => exact .inr ⟨_, rfl, rfl⟩
  | markInUse path inUse => exact .inr ⟨_, rfl, rfl⟩
  | rearrange pick => exact .inr ⟨_, rfl, rfl⟩
  | create parent name identity size mtime directory =>
    simp only [next, Bridge.create]
    split
    · exact .inr ⟨_, rfl, rfl⟩
    · exact .inl rfl
  | update path identity size mtime =>
    simp only [next, Bridge.update]
    split
    · exact .inr ⟨_, rfl, rfl⟩
    · exact .inl rfl
  | dehydrate path => exact .inr ⟨_, rfl, rfl⟩
  | refuse n =>
    simp only [next]
    split
    · rename_i r hr
      simp only [Answer.refuse_bridge]
      exact (Bridge.deliver_facility ..).imp_right fun h => ⟨_, ⟨r, List.mem_of_getElem? hr, rfl⟩, h⟩
    · exact .inl rfl
  | serve n =>
    simp only [next]
    split <;> exact .inl rfl
  | fetch i store =>
    simp only [next, plan]
    split <;> exact .inl rfl
  | timeOut i =>
    simp only [next, plan]
    split <;> exact .inl rfl
  | send i =>
    simp only [next, sendFrom]
    split
    · rename_i r c rest hi
      have hfacility := Bridge.deliver_facility r.connection r.transfer c d.bridge
      have hmakes : d.Makes (.send i) (.execute (c.operation r.connection r.transfer)) :=
        ⟨r, c, rest, List.mem_of_getElem? hi, rfl⟩
      split <;> rename_i hb <;> rw [hb] at hfacility <;> exact hfacility.imp_right fun h => ⟨_, hmakes, h⟩
    · exact .inl rfl

end Daemon

end OnDemand
