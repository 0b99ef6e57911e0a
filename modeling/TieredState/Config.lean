import TieredState.Files
import TieredState.Log
import TieredState.Toml.Record

/-!
# Configuration

A configuration seeds the global state of a process, limits its instances and sets how much is
logged. Every section and key may be left out, and keys that are not known are skipped. Where no
file is named, environment variables tell where to look for one.
-/

namespace TieredState

open Toml

/-- Seeds for the global state of a process. -/
structure ProcessConfig where
  shPath : String := "/bin/sh"
  programName : String := "tierstate"
  doUndump : Bool := false
  earlyTaint : Bool := false
  deriving DecidableEq, Repr

structure InstanceConfig where
  -- The greatest number of live instances; zero is no limit.
  maxInstances : Nat := 0
  deriving DecidableEq, Repr

structure LoggingConfig where
  -- The level as it is written.
  level : String := "warn"
  deriving DecidableEq, Repr

/-- The whole configuration. -/
structure Config where
  process : ProcessConfig := {}
  instances : InstanceConfig := {}
  logging : LoggingConfig := {}
  deriving DecidableEq, Repr

/-- Why there is no configuration to be had. -/
inductive ConfigError where
  | unreadable (path : String) (cause : FileError)
  -- The text, of a file if it has a path, is no configuration.
  | document (path? : Option String) (e : DocumentError)
  -- The text stands for no level.
  | invalidLevel (level : String)
  deriving Repr

namespace ProcessConfig

def shape : RecordShape ProcessConfig where
  title := "struct ProcessConfig"
  keys := [
    .of "sh_path" Value.asText fun s c => { c with shPath := s },
    .of "program_name" Value.asText fun s c => { c with programName := s },
    .of "do_undump" Value.asBoolean fun b c => { c with doUndump := b },
    .of "early_taint" Value.asBoolean fun b c => { c with earlyTaint := b }]
  closed := false
  start := {}

end ProcessConfig

namespace InstanceConfig

def shape : RecordShape InstanceConfig where
  title := "struct InstanceConfig"
  keys := [
    .of "max_instances" (Value.asNatural UInt64.size "usize") fun n c => { c with maxInstances := n }]
  closed := false
  start := {}

end InstanceConfig

namespace LoggingConfig

def shape : RecordShape LoggingConfig where
  title := "struct LoggingConfig"
  keys := [.of "level" Value.asText fun s c => { c with level := s }]
  closed := false
  start := {}

/-- The level of the log. -/
def maxLevel (c : LoggingConfig) : Except ConfigError Level :=
  match Level.ofText? c.level with
  | some l => .ok l
  | none => .error (.invalidLevel c.level)

end LoggingConfig

namespace ConfigError

def message : ConfigError → String
  | unreadable path cause => "Failed to read config '" ++ path ++ "': " ++ cause.message
  | document (some path) _ => "Invalid config '" ++ path ++ "': " ++ DocumentError.heading
  | document none e => "Invalid config: " ++ e.message
  | invalidLevel l => "Unknown log level '" ++ l ++ "'"

end ConfigError

namespace Config

def shape : RecordShape Config where
  title := "struct RuntimeConfig"
  keys := [
    .of "process" ProcessConfig.shape.read fun p c => { c with process := p },
    .of "instances" InstanceConfig.shape.read fun i c => { c with instances := i },
    .of "logging" LoggingConfig.shape.read fun l c => { c with logging := l }]
  closed := false
  start := {}

/-- Read a configuration, from the file at `path?` if there is one, and check that its level is
one. -/
def parse (text : String) (path? : Option String := none) : Except ConfigError Config := do
  let c ← (shape.parse text).mapError (.document path?)
  let _ ← c.logging.maxLevel
  return c

end Config

/-! ## Where a configuration is found -/

/-- The environment variables that a program was started with. -/
structure Variables where
  entries : List (String × String) := []
  deriving Inhabited

namespace Variables

def get? (v : Variables) (name : String) : Option String := v.entries.lookup name

/-- The directory for a user's configurations: the one that is named as an absolute path, or else
the usual one in the home directory. -/
def configDirectory? (v : Variables) : Option String :=
  match (v.get? "XDG_CONFIG_HOME").filter (·.startsWith "/") with
  | some dir => some dir
  | none => ((v.get? "HOME").filter (!·.isEmpty)).map fun home => Path.join home [".config"]

end Variables

namespace Config

/-- Read a configuration file. -/
def load {m : Type → Type} [Monad m] [FileAccess m] (path : String) :
    m (Except ConfigError Config) := do
  match ← FileAccess.readText path with
  | .ok text => return parse text (some path)
  | .error cause => return .error (.unreadable path cause)

/-- The variable that names a configuration file. -/
def pathVariable : String := "TIERSTATE_CONFIG"

/-- The places where a configuration is looked for, where none is named. -/
def candidates (v : Variables) : List String :=
  (v.get? pathVariable).toList ++
    v.configDirectory?.toList.map fun dir => Path.join dir ["tierstate", "config.toml"]

/-- The configuration of the first candidate that is a file, or else the default one. -/
def loadFirst {m : Type → Type} [Monad m] [FileAccess m] :
    List String → m (Except ConfigError Config)
  | [] => return .ok {}
  | path :: paths => do if ← FileAccess.isFile path then load path else loadFirst paths

/-- The configuration of the file that is named, or else of the first candidate that is a file, or
else the default one. -/
def discover {m : Type → Type} [Monad m] [FileAccess m] (v : Variables)
    (explicit? : Option String) : m (Except ConfigError Config) :=
  match explicit? with
  | some path => load path
  | none => loadFirst (candidates v)

end Config

end TieredState
