import OnDemand.Command.Run

/-!
# The command line

Reads the arguments, the environment and the configuration file, and prints what the run comes to.
-/

open OnDemand

namespace OnDemand.CommandLine

def environmentNames : List String := ["STRATUS_CONFIG", "STRATUS_LOG", "STRATUS_LOG_FORMAT", "RUST_LOG"]

def environment : IO (String → Option String) := do
  let values ← environmentNames.mapM fun name => do return (name, ← IO.getEnv name)
  return fun name => (values.lookup name).join

def readConfig (path : Path) : IO Command.ConfigFile := do
  let handle ← (IO.FS.Handle.mk path.text .read).toBaseIO
  match handle with
  | .error _ => return .missing
  | .ok _ =>
    match ← (IO.FS.readBinFile path.text).toBaseIO with
    | .ok bytes => return .content bytes.toList
    | .error _ => return .directory

def helpText : String :=
  "Usage: stratusd [--config PATH] [--log LEVEL] [--log-format json|text] [serve | unregister | dehydrate PATH...]"

end OnDemand.CommandLine

def main (args : List String) : IO UInt32 := do
  let env ← CommandLine.environment
  match Arguments.parse env args with
  | .error halt =>
    match halt with
    | .version => IO.println Command.versionText
    | .help => IO.println CommandLine.helpText
    | .usage => IO.eprintln CommandLine.helpText
    return UInt32.ofNat halt.code
  | .ok invocation =>
    let result := Command.run env invocation (← CommandLine.readConfig invocation.config)
    for line in result.lines do
      IO.println (line.render result.format)
    match result.error with
    | some message =>
      IO.eprintln s!"Error: {message}"
      return 1
    | none => return 0
