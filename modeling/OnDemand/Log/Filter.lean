import OnDemand.Log.Directive

/-!
# Log filters

A filter is a list of directives between commas. Of the directives that cover a line the most specific one decides; of two
that ask for the same the later one counts. Without any directive only errors pass.
-/

namespace OnDemand.Log

structure Filter where
  directives : List Directive
deriving DecidableEq, Repr

namespace Filter

def pieces (text : String) : List String :=
  ((Text.splitBy (· = ',') text.toList).filter (· ≠ [])).map String.ofList

/-- The filter of `text`, unless a directive cannot be read. -/
def strict? (text : String) : Option Filter := ((pieces text).mapM Directive.read?).map Filter.mk

/-- The filter of `text` without the directives that cannot be read. -/
def lenient (text : String) : Filter := ⟨(pieces text).filterMap Directive.read?⟩

/-- The directive that decides about a line. -/
def deciding? (f : Filter) (l : Line) : Option Directive :=
  (f.directives.filter (·.covers l)).foldl (fun best d =>
    match best with
    | none => some d
    | some e => if d.supersedes e then some d else some e) none

def verbosityFor (f : Filter) (l : Line) : Nat :=
  if f.directives = [] then Level.error.verbosity else (f.deciding? l).elim 0 (·.verbosity)

def passes (f : Filter) (l : Line) : Bool := l.level.verbosity ≤ f.verbosityFor l

theorem passes_nil {l : Line} : (Filter.mk []).passes l = true ↔ l.level = .error := by
  cases h : l.level <;> simp [passes, verbosityFor, h, Level.verbosity]

private theorem filterMap_of_mapM {α β : Type} {f : α → Option β} :
    {xs : List α} → {ys : List β} → xs.mapM f = some ys → xs.filterMap f = ys
  | [], ys, h => by simpa using h
  | x :: xs, ys, h => by
    cases hx : f x with
    | none => simp [hx] at h
    | some y =>
      cases hs : xs.mapM f with
      | none => simp [hx, hs] at h
      | some zs =>
        have e : y :: zs = ys := by simpa [hx, hs] using h
        rw [List.filterMap_cons_some hx, filterMap_of_mapM hs, e]

/-- Where every directive can be read, nothing is left out. -/
theorem lenient_of_strict? {text : String} {f : Filter} (h : strict? text = some f) : lenient text = f := by
  obtain ⟨ds, hds, rfl⟩ := Option.map_eq_some_iff.1 h
  exact congrArg mk (filterMap_of_mapM hds)

end Filter

end OnDemand.Log
