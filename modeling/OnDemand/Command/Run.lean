import OnDemand.Command.Arguments
import OnDemand.Config.Reading
import OnDemand.FileTree
import OnDemand.Log.Filter

/-!
# Running a command

The configuration is read, logging begins, the configuration is checked, and the command is started. All commands need the
facility of the operating system, which is there on Windows only.
-/

namespace OnDemand.Command

/-- What is found at the path of the configuration. -/
inductive ConfigFile where
  | missing
  | directory
  | content (bytes : Bytes)
deriving DecidableEq, Repr

/-- What a run comes to: its log, and the message of the error that ended it. -/
structure Result where
  format : Log.Format
  lines : List Log.Line
  error : Option String
deriving DecidableEq, Repr

/-- The facility of the operating system; only its absence can be told here. -/
def nativeFacility : Except String Unit :=
  .error "Cloud Files API is only available on Windows 10 1809+"

def mainTarget : String := "stratusd"

def daemonTarget : String := "stratusd::daemon"

/-- The configuration in a file, or the defaults if there is none. -/
def configOf (path : Path) : ConfigFile → Except String Config
  | .missing => .ok .default
  | .directory => .error s!"reading config {path}: Is a directory (os error 21)"
  | .content bytes =>
    match Text.Utf8.decode? bytes with
    | none => .error s!"reading config {path}: stream did not contain valid UTF-8"
    | some text =>
      match Config.parse? text with
      | none => .error s!"parsing config {path}"
      | some config => .ok config

/-- The filter of the environment, or else of a level. -/
def logFilter (env : String → Option String) (level : String) : Log.Filter :=
  ((env "RUST_LOG").bind Log.Filter.strict?).getD (.lenient level)

def notFound (path : Path) : Log.Line :=
  ⟨.warn, mainTarget, s!"config file not found: {path}  (using defaults)", []⟩

def starting (i : Invocation) (root : Path) : Log.Line :=
  ⟨.info, mainTarget, "stratusd starting",
    [⟨"version", packageVersion, true⟩, ⟨"command", i.command.describe, false⟩, ⟨"config", i.config.text, false⟩,
      ⟨"root", root.text, false⟩]⟩

def daemonStarting : Log.Line := ⟨.info, daemonTarget, "daemon starting", []⟩

/-- The lines that a command logs before it asks for the facility. -/
def opening : Command → List Log.Line
  | serve => [daemonStarting]
  | unregister | dehydrate _ => []

/-- Starts the command of `i`. -/
def start (i : Invocation) : Except String Unit × List Log.Line := (nativeFacility, i.command.opening)

def formatOfConfig (c : Config) : Log.Format := if c.daemon.logFormat = "json" then .json else .text

def run (env : String → Option String) (i : Invocation) (file : ConfigFile) : Result :=
  match configOf i.config file with
  | .error message => ⟨i.logFormat.getD .text, [], some message⟩
  | .ok config =>
    let filter := logFilter env (i.log.getD config.daemon.logLevel)
    let format := i.logFormat.getD (formatOfConfig config)
    let found := if file = .missing then [notFound i.config] else []
    let (outcome, lines) : Except String Unit × List Log.Line :=
      match config.validate with
      | .error e => (.error e.message, found)
      | .ok () =>
        let (outcome, lines) := start i
        (outcome, found ++ starting i config.syncRoot.path :: lines)
    { format
      lines := lines.filter filter.passes
      error := match outcome with
        | .error message => some message
        | .ok () => none }

/-- The configuration file as a tree of files shows it. -/
def configFile (files : FileTree) (path : Path) : ConfigFile :=
  match files.resolve path with
  | .ok (.found _ (.file bytes) _) => .content bytes
  | .ok (.found _ .directory _) => .directory
  | _ => .missing

def versionText : String := s!"stratusd {packageVersion}"

end OnDemand.Command
