import TieredState.Accessors
import TieredState.Arguments
import TieredState.Manifest.File
import TieredState.Policy.Render
import TieredState.Stress

/-!
# The command line program

`CommandLine.run` does what a command line asks for, on the files that it is given access to. What
it prints, and with what exit code it ends, is its `Result`.
-/

namespace TieredState

namespace CommandLine

/-- What a run of the program leaves behind, apart from the files that it wrote. -/
structure Result where
  exitCode : UInt8 := 0
  stdout : String := ""
  stderr : String := ""
  logs : List LogLine := []

/-- What a command has printed and logged, and the error that it ended with. -/
structure Work where
  printed : String := ""
  logs : List LogLine := []
  error? : Option String := none

/-- A run that ends with an error. -/
def failed (message : String) : Result :=
  { exitCode := 1, stderr := "Error: " ++ message ++ "\n" }

/-- The result of a command, in a log of level `most`. -/
def Work.result (w : Work) (most : Level) : Result :=
  match w.error? with
  | none => { stdout := w.printed, logs := LogLine.shown most w.logs }
  | some e => { failed e with stdout := w.printed, logs := LogLine.shown most w.logs }

/-- Print the policy for the fields that are built in. -/
def table : Work :=
  match Builtin.policy false with
  | .ok p => { printed := p.render, logs := Builtin.policyLog false }
  | .error e => { error? := some e.message }

variable {m : Type → Type} [Monad m] [FileAccess m]

/-- The line that sums a policy up. -/
def summary (path : String) (p : Policy) : String :=
  path ++ ": " ++ toString p.locks.length ++ " locks, " ++ toString p.size ++ " fields, " ++
    toString p.exports.length ++ " exported\n"

/-- Check the declarations of a manifest file. -/
def check (path : String) : m Work := do
  match ← Manifest.load path with
  | .error e => return { error? := some e.message }
  | .ok manifest =>
    let logs := Manifest.loadLog ++ manifest.policyLog
    match manifest.policy with
    | .ok p => return { printed := summary path p, logs }
    | .error e => return { logs, error? := some e.message }

/-- Write a text to a file. A failure is told after `role`. -/
def write (role path text : String) : m (Except String Unit) := do
  match ← FileAccess.writeText path text with
  | .ok () => return .ok ()
  | .error e =>
    return .error ("Failed to write " ++ role ++ " '" ++ path ++ "': " ++ e.message)

/-- Write the text of the declarations to the file that is named for it, or else print it. -/
def writeDeclarations (output? : Option String) (text : String) : m (Except String String) :=
  match output? with
  | none => return .ok text
  | some path => do return (← write "output file" path text).map fun () => ""

/-- Write the linker script to the file that is named for it, if one is. -/
def writeExports (exports? : Option String) (text : String) : m (Except String Unit) :=
  match exports? with
  | none => return .ok ()
  | some path => write "export script" path text

/-- The name under which generated text refers to the manifest file. -/
def sourceName (path : String) : String := (Path.fileName? path).getD path

/-- Generate the accessors for a manifest file. -/
def generate (path : String) (o : Options) : m Work := do
  match ← Manifest.load path with
  | .error e => return { error? := some e.message }
  | .ok manifest =>
    let logs := Manifest.loadLog ++ manifest.accessorsLog
    match manifest.accessors (sourceName path) o.symbolStart with
    | .error e => return { logs, error? := some (ManifestError.invalid e).message }
    | .ok a =>
      match ← writeDeclarations o.output? a.declarations with
      | .error e => return { logs, error? := some e }
      | .ok printed =>
        match ← writeExports o.exports? a.exportScript with
        | .ok () => return { printed, logs }
        | .error e => return { printed, logs, error? := some e }

/-- Let workers create and bind instances, one worker after the other. -/
def stress (c : Config) (threads : Nat) : Work :=
  let s := (Stress.start c threads).run (Stress.inTurn threads)
  match s.report with
  | .ok r => { printed := r.text, logs := s.fullLog, error? := r.error?.map (·.message) }
  | .error e => { logs := s.log, error? := some e.message }

/-- Do what a command asks for. Where no number of workers is given, it is `threads`. -/
def perform (c : Command) (o : Options) (config : Config) (threads : Nat) : m Work :=
  match c with
  | .table => return table
  | .check path => check path
  | .generate path => generate path o
  | .stress => return stress config (o.threads?.getD threads)

/-- The level of the log. -/
def logLevel (o : Options) (config : Config) : Except ConfigError Level := do
  let configured ← config.logging.maxLevel
  return if o.verbose then Level.max .debug configured else configured

/-- Run a command in the configuration that is found for it. -/
def runCommand (c : Command) (o : Options) (v : Variables) (threads : Nat) : m Result := do
  match ← Config.discover v o.config? with
  | .error e => return failed e.message
  | .ok config =>
    match logLevel o config with
    | .error e => return failed e.message
    | .ok level => return (← perform c o config threads).result level

/-- Run the program on its arguments, among the variables `v`. -/
def run (args : List String) (v : Variables) (threads : Nat) : m Result :=
  match Arguments.read args with
  | .ok .help => return { stderr := Arguments.usageText }
  | .ok .version => return { stdout := Arguments.versionText }
  | .ok (.perform c o) => runCommand c o v threads
  | .error e =>
    let r := failed e.message
    return { r with stderr := r.stderr ++ "\n" ++ Arguments.usageText }

end CommandLine

end TieredState
