import OnDemand.Bridge.Response
import OnDemand.Hydration.Counters
import OnDemand.Hydration.Request

/-!
# The answer to a request

What is sent for a request is a plan made of what the content source returned: the bytes in segments, then a
failure if something owed is missing. Sending stops at the first refusal.
-/

namespace OnDemand

/-- What a content source returned. -/
inductive Fetched where
  | data (bytes : Bytes)
  | failed
  | timedOut
deriving DecidableEq, Repr, Inhabited

/-- Segments start at multiples of this number of bytes. -/
def segmentAlignment : Nat := 4096

/-- The segment length used for a configured one: the multiple of the alignment below it, but at least one. -/
def alignedChunk (size : Nat) : Nat := max (size / segmentAlignment * segmentAlignment) segmentAlignment

theorem alignedChunk_pos (size : Nat) : 0 < alignedChunk size := by
  unfold alignedChunk segmentAlignment; omega

namespace Answer

/-- Consecutive pieces of `bytes`, `chunk` bytes each but for the last, from `offset` on. -/
def segments (chunk offset : Nat) (bytes : Bytes) : List Completion :=
  if _ : chunk = 0 ∨ bytes = [] then []
  else .data offset (bytes.take chunk) :: segments chunk (offset + chunk) (bytes.drop chunk)
termination_by bytes.length
decreasing_by
  rename_i h
  have : bytes.length ≠ 0 := fun e => h (.inr (List.eq_nil_of_length_eq_zero e))
  simp only [List.length_drop]; omega

/-- The failure that follows content ending at `stop`, if `r` is owed more. -/
def shortfall (r : Request) (stop : Nat) : List Completion :=
  if stop < r.owedStop then [.failure stop .failure] else []

def plan (chunk : Nat) (r : Request) : Fetched → List Completion
  | .data [] | .failed => [.failure r.offset .failure]
  | .timedOut => [.failure r.offset .ioTimeout]
  | .data bytes =>
    let wanted := bytes.take r.length
    segments chunk r.offset wanted ++ shortfall r (r.offset + wanted.length)

/-- Whether a plan ends the request with a failure. -/
def endsInFailure (plan : List Completion) : Bool :=
  match plan.getLast? with
  | some (.failure _ _) => true
  | _ => false

variable {σ : Type} [CloudFacility σ]

/-- Sends completions in order up to the first refusal; whether all were accepted. -/
def send (r : Request) : List Completion → Bridge σ → Bool × Bridge σ
  | [], b => (true, b)
  | c :: rest, b =>
    match b.deliver r.connection r.transfer c with
    | (.ok (), b) => send r rest b
    | (.error _, b) => (false, b)

def run (r : Request) (plan : List Completion) (b : Bridge σ) : Conclusion × Bridge σ :=
  match send r plan b with
  | (false, b) => (.abandoned, b)
  | (true, b) => (if endsInFailure plan then .failed else .answered, b)

/-- Serves `r` with what the source returned, in segments of `chunk` bytes. -/
def serve (chunk : Nat) (r : Request) (fetched : Fetched) (b : Bridge σ) : Conclusion × Bridge σ :=
  run r (plan chunk r fetched) b

/-- Fails `r` because nobody will serve it. -/
def refuse (r : Request) (b : Bridge σ) : Conclusion × Bridge σ :=
  run r [.failure r.offset .providerNotRunning] b

end Answer

end OnDemand
