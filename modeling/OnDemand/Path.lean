import OnDemand.Text.Blank

/-!
# Paths

A path is kept as the text it was written with, and compared by its components: repeated and trailing
slashes and `.` components after the first place do not count. Tables of paths use the list of components,
the route, as their key; routes are ordered component by component, so everything below a directory follows
it directly.
-/

namespace OnDemand

inductive Component where
  | root
  | here
  | up
  | name (text : String)
deriving DecidableEq, Repr, Inhabited

namespace Component

/-- The place of the kinds of components in the order of routes. -/
def rank : Component → Nat
  | root => 0
  | here => 1
  | up => 2
  | name _ => 3

def text : Component → String
  | name t => t
  | _ => ""

theorem ext {a b : Component} (hr : a.rank = b.rank) (ht : a.text = b.text) : a = b := by
  cases a <;> cases b <;> simp_all [rank, text]

instance : Ord Component := ⟨compareLex (compareOn rank) (compareOn text)⟩

instance : Std.TransOrd Component :=
  inferInstanceAs (Std.TransCmp (compareLex (compareOn rank) (compareOn text)))

instance : Std.LawfulEqOrd Component where
  compare_self {a} := (Std.ReflCmp.compare_self : compareLex (compareOn rank) (compareOn text) a a = .eq)
  eq_of_compare {a b} h := by
    obtain ⟨hr, ht⟩ := compareLex_eq_eq.1 h
    have hr : compare a.rank b.rank = .eq := hr
    have ht : compare a.text b.text = .eq := ht
    exact ext (Std.LawfulEqCmp.eq_of_compare hr) (Std.LawfulEqCmp.eq_of_compare ht)

/-- The component as it stands in a path. -/
def written : Component → String
  | root => ""
  | here => "."
  | up => ".."
  | name t => t

/-- The component written between two slashes, if it counts. -/
def ofSegment? (s : List Char) : Option Component :=
  if s = [] ∨ s = ['.'] then none
  else if s = ['.', '.'] then some up
  else some (name (String.ofList s))

end Component

/-- The components of a path, outermost first. -/
abbrev Route := List Component

structure Path where
  text : String
deriving DecidableEq, Repr, Inhabited

namespace Path

def isAbsolute (p : Path) : Bool := p.text.toList.head? == some '/'

/-- A `.` counts only where nothing stands before it. -/
def route (p : Path) : Route :=
  let segments := Text.splitBy (· = '/') p.text.toList
  let lead := if p.isAbsolute then [.root] else if segments.head? = some ['.'] then [.here] else []
  lead ++ segments.filterMap Component.ofSegment?

/-- Whether two paths name the same place. -/
def same (p q : Path) : Bool := p.route == q.route

/-- Whether `p` is `base` or lies below it. -/
def startsWith (p base : Path) : Bool := base.route.isPrefixOf p.route

/-- The path of `name` below `p`: a slash is put between them where none stands. An absolute `name` replaces `p`. -/
def join (p : Path) (name : String) : Path :=
  if name.toList.head? = some '/' then ⟨name⟩
  else if p.text.toList = [] ∨ p.text.toList.getLast? = some '/' then ⟨p.text ++ name⟩
  else ⟨p.text ++ "/" ++ name⟩

/-- The shortest text of a route. -/
def ofRoute (r : Route) : Path := ⟨if r = [.root] then "/" else "/".intercalate (r.map Component.written)⟩

/-- The path itself and every shorter beginning of it, longest first. -/
def ancestors (p : Path) : List Path :=
  let r := p.route
  p :: ((List.range r.length).reverse.filter (0 < ·)).map fun n => ofRoute (r.take n)

theorem same_iff {p q : Path} : p.same q = true ↔ p.route = q.route := by
  simp [same]

theorem startsWith_iff {p base : Path} : p.startsWith base = true ↔ base.route <+: p.route := by
  simp [startsWith]

end Path

instance : ToString Path := ⟨Path.text⟩

end OnDemand
