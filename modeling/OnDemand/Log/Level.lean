import OnDemand.Text.Number
import OnDemand.Word

/-!
# Log levels

A level lets lines through up to a verbosity; nothing at all has verbosity zero.
-/

namespace OnDemand.Log

inductive Level where
  | error
  | warn
  | info
  | debug
  | trace
deriving DecidableEq, Repr, Inhabited

namespace Level

def name : Level → String
  | error => "ERROR"
  | warn => "WARN"
  | info => "INFO"
  | debug => "DEBUG"
  | trace => "TRACE"

def verbosity : Level → Nat
  | error => 1
  | warn => 2
  | info => 3
  | debug => 4
  | trace => 5

theorem verbosity_pos (l : Level) : 0 < l.verbosity := by cases l <;> decide

end Level

/-- The verbosity written as a number or, in any case, as a word; nothing stands for errors only. -/
def verbosity? (s : String) : Option Nat :=
  match (Text.unsigned? (Word.maxUnsigned + 1) s.toList).filter (· ≤ 5) with
  | some n => some n
  | none =>
    match String.ofList (s.toList.map Char.toLower) with
    | "" | "error" => some Level.error.verbosity
    | "warn" => some Level.warn.verbosity
    | "info" => some Level.info.verbosity
    | "debug" => some Level.debug.verbosity
    | "trace" => some Level.trace.verbosity
    | "off" => some 0
    | _ => none

end OnDemand.Log
