/-!
# TOML values

What a document holds. Floats and dates are recognised but not kept. A table remembers how it came about, since that
decides what may still be added to it.
-/

namespace OnDemand.Toml

inductive TableKind where
  /-- Written inline; nothing can be added. -/
  | closed
  /-- Opened by a header of its own. -/
  | defined
  /-- Implied by the header of a table below it. -/
  | implied
  /-- Made by a dotted key. -/
  | dotted
deriving DecidableEq, Repr, Inhabited

inductive Value where
  | string (text : String)
  | integer (n : Int)
  | float
  | boolean (b : Bool)
  | datetime
  | array (items : List Value)
  | table (kind : TableKind) (items : List (String × Value))
  /-- An array of tables, made by headers in double brackets. -/
  | tables (elements : List (List (String × Value)))
deriving Inhabited

abbrev Items := List (String × Value)

/-- What is left of the input after a part of it has been read, with the value of that part. -/
abbrev Parse (α : Type) := List Char → Option (α × List Char)

end OnDemand.Toml
