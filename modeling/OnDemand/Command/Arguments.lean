import OnDemand.Log.Line
import OnDemand.Path

/-!
# Command line arguments

Options come before the subcommand. The value of an option stands after an equals sign, directly after its letter, or in the
next argument; in the last case it is checked when the next option or flag begins, or at the end. Options that are missing
take their values from the environment.
-/

namespace OnDemand

inductive Command where
  | serve
  | unregister
  | dehydrate (paths : List Path)
deriving DecidableEq, Repr, Inhabited

def Command.describe : Command → String
  | serve => "Serve"
  | unregister => "Unregister"
  | dehydrate paths =>
    "Dehydrate \x7b paths: [" ++ ", ".intercalate (paths.map fun p => Text.quote p.text) ++ "] \x7d"

/-- Why there is nothing to run. -/
inductive Halt where
  | help
  | version
  | usage
deriving DecidableEq, Repr

/-- The exit code of a run that did not begin. -/
def Halt.code : Halt → Nat
  | help | version => 0
  | usage => 2

structure Invocation where
  config : Path
  log : Option String
  logFormat : Option Log.Format
  command : Command
deriving DecidableEq, Repr

namespace Arguments

inductive Opt where
  | config
  | log
  | logFormat
deriving DecidableEq, Repr

def Opt.ofName? : String → Option Opt
  | "config" => some .config
  | "log" => some .log
  | "log-format" => some .logFormat
  | _ => none

def Opt.variable : Opt → String
  | .config => "STRATUS_CONFIG"
  | .log => "STRATUS_LOG"
  | .logFormat => "STRATUS_LOG_FORMAT"

/-- The options that have been given and accepted. -/
structure Given where
  config : Option Path
  log : Option String
  logFormat : Option Log.Format
deriving DecidableEq, Repr

/-- An option that is not settled yet. -/
inductive Pending where
  | nothing
  | awaiting (o : Opt)
  | given (o : Opt) (value : String)
deriving DecidableEq, Repr

def formatOfName? : String → Option Log.Format
  | "json" => some .json
  | "text" => some .text
  | _ => none

/-- Accepts a value for an option that has none yet. A path cannot be empty. -/
def Given.take (g : Given) (o : Opt) (value : String) : Except Halt Given :=
  match o with
  | .config => if g.config.isSome ∨ value = "" then .error .usage else .ok { g with config := some ⟨value⟩ }
  | .log => if g.log.isSome then .error .usage else .ok { g with log := some value }
  | .logFormat =>
    match formatOfName? value with
    | some format => if g.logFormat.isSome then .error .usage else .ok { g with logFormat := some format }
    | none => .error .usage

def settle (g : Given) : Pending → Except Halt Given
  | .nothing => .ok g
  | .awaiting _ => .error .usage
  | .given o value => g.take o value

/-- Whether the argument names options: it has a dash and more. -/
def isFlag (arg : String) : Bool :=
  match arg.toList with
  | '-' :: _ :: _ => true
  | _ => false

/-- Whether a flag of a subcommand asks for help. -/
def asksForHelp (arg : String) : Bool := arg = "--help" || "-h".toList.isPrefixOf arg.toList

/-- The arguments of a subcommand that takes none. -/
def noArguments (command : Command) : List String → Except Halt Command
  | [] | ["--"] => .ok command
  | arg :: _ => .error (if asksForHelp arg then .help else .usage)

/-- The end of a list of paths: there has to be one, and none may be empty. -/
def pathsEnd (paths : List String) : Except Halt Command :=
  if paths = [] ∨ paths.contains "" then .error .usage else .ok (.dehydrate (paths.map Path.mk))

/-- The paths to dehydrate; after `--` every argument is one. -/
def dehydratePaths (paths : List String) : List String → Except Halt Command
  | [] => pathsEnd paths
  | arg :: rest =>
    if arg = "--" then pathsEnd (paths ++ rest)
    else if isFlag arg then .error (if asksForHelp arg ∧ !paths.contains "" then .help else .usage)
    else dehydratePaths (paths ++ [arg]) rest

/-- What `help` is asked about: at most one subcommand. -/
def helpAbout : List String → Halt
  | [] => .help
  | [name] => if name ∈ ["serve", "unregister", "dehydrate", "help"] then .help else .usage
  | _ => .usage

/-- The subcommand named by an argument, with the arguments after it. -/
def subcommand? (arg : String) (rest : List String) : Option (Except Halt Command) :=
  match arg with
  | "serve" => some (noArguments .serve rest)
  | "unregister" => some (noArguments .unregister rest)
  | "dehydrate" => some (dehydratePaths [] rest)
  | "help" => some (.error (helpAbout rest))
  | _ => none

/-- A flag of the program itself: the options so far and the option that waits for its value. -/
def flag (g : Given) (pending : Pending) (arg : String) : Except Halt (Given × Pending) :=
  match arg.toList with
  | '-' :: '-' :: long =>
    let name := String.ofList (long.takeWhile (· ≠ '='))
    match Opt.ofName? name, long.dropWhile (· ≠ '=') with
    | some o, [] => do return (← settle g pending, .awaiting o)
    | some o, _ :: value => do return (← (← settle g pending).take o (String.ofList value), .nothing)
    | none, [] => do
      let _ ← settle g pending
      .error (if name = "help" then .help else if name = "version" then .version else .usage)
    | none, _ => .error .usage
  | '-' :: 'h' :: _ => do
    let _ ← settle g pending
    .error .help
  | '-' :: 'V' :: _ => do
    let _ ← settle g pending
    .error .version
  | ['-', 'c'] => do return (← settle g pending, .awaiting .config)
  | '-' :: 'c' :: value => do
    let value := match value with
      | '=' :: value => value
      | value => value
    return (← (← settle g pending).take .config (String.ofList value), .nothing)
  | _ => .error .usage

/-- Reads arguments up to the subcommand, and the subcommand. -/
def read (g : Given) (pending : Pending) : List String → Except Halt (Given × Option Command)
  | [] => do return (← settle g pending, none)
  | arg :: rest =>
    match pending with
    | .awaiting o => if isFlag arg then .error .usage else read g (.given o arg) rest
    | pending =>
      match subcommand? arg rest with
      | some command => do
        let command ← command
        return (← settle g pending, some command)
      | none =>
        if arg = "--" then
          if rest = [] then do return (← settle g pending, none) else .error .usage
        else if isFlag arg then do
          let (g, pending) ← flag g pending arg
          read g pending rest
        else .error .usage

/-- Takes what is missing from the environment. -/
def fromEnvironment (env : String → Option String) (g : Given) : Except Halt Given :=
  [(Opt.config, g.config.isSome), (.log, g.log.isSome), (.logFormat, g.logFormat.isSome)].foldlM (fun g (o, isGiven) =>
    match env o.variable with
    | some value => if isGiven then .ok g else g.take o value
    | none => .ok g) g

def parse (env : String → Option String) (args : List String) : Except Halt Invocation := do
  let (g, command) ← read ⟨none, none, none⟩ .nothing args
  let g ← fromEnvironment env g
  return ⟨g.config.getD ⟨"stratus.toml"⟩, g.log, g.logFormat, command.getD .serve⟩

end Arguments

end OnDemand
