import TieredState.Decimal.Reading

/-!
# Command line arguments

`Arguments.read` goes through the arguments from left to right. A request for help or for the
version is granted where it stands, and a fault is told where it stands, so whichever comes first
decides. What is left over when all flags are read is the command with its manifest.
-/

namespace TieredState

/-- What the program is asked to do. -/
inductive Command where
  | table
  | check (manifest : String)
  | generate (manifest : String)
  | stress
  deriving DecidableEq, Repr

/-- How it is asked to do it. -/
structure Options where
  config? : Option String := none
  verbose : Bool := false
  output? : Option String := none
  exports? : Option String := none
  -- What is put in front of the names of exported fields.
  symbolStart : String := ""
  -- The number of workers, if one is given.
  threads? : Option Nat := none
  deriving DecidableEq, Repr

/-- What a command line comes down to. -/
inductive Request where
  | help
  | version
  | perform (c : Command) (o : Options)
  deriving DecidableEq, Repr

/-- Why a command line is refused. -/
inductive UsageError where
  | missingValue (flag : String)
  | invalidThreads (text : String)
  | noThreads
  | unknownOption (text : String)
  | missingCommand
  | unknownCommand (text : String)
  | missingManifest (command : String)
  | unexpected (text : String)
  deriving DecidableEq, Repr

namespace UsageError

def message : UsageError → String
  | missingValue flag => "Missing value after " ++ flag
  | invalidThreads text => "Invalid thread count: " ++ text
  | noThreads => "Thread count must be at least 1"
  | unknownOption text => "Unknown option: " ++ text
  | missingCommand => "Missing command"
  | unknownCommand text => "Unknown command: " ++ text
  | missingManifest command => "Missing manifest for " ++ command
  | unexpected text => "Unexpected argument: " ++ text

end UsageError

namespace Arguments

/-- A flag that is followed by a value. -/
inductive Setting where
  | config
  | output
  | exports
  | symbolStart
  | threads
  deriving DecidableEq, Repr

inductive Flag where
  | help
  | version
  | verbose
  | setting (s : Setting)
  deriving DecidableEq, Repr

/-- The spellings of the flags. -/
def spellings : List (String × Flag) := [
  ("-h", .help), ("--help", .help),
  ("-v", .version), ("--version", .version),
  ("--verbose", .verbose),
  ("--config", .setting .config),
  ("-o", .setting .output), ("--output", .setting .output),
  ("--exports", .setting .exports),
  ("--prefix", .setting .symbolStart),
  ("--threads", .setting .threads)]

/-- The spelling under which the value of a setting is missed. -/
def Setting.text : Setting → String
  | config => "--config"
  | output => "-o"
  | exports => "--exports"
  | symbolStart => "--prefix"
  | threads => "--threads"

/-- A number of workers: a word of 64 bits, and not zero. -/
def readThreads (text : String) : Except UsageError Nat :=
  match (Decimal.numeral? text).filter (· < UInt64.size) with
  | none => .error (.invalidThreads text)
  | some 0 => .error .noThreads
  | some n => .ok n

/-- What was read so far: the options, and the arguments that are no flags. -/
structure Draft where
  options : Options := {}
  positional : List String := []

/-- Give a setting its value. The last one given counts. -/
def Draft.set (d : Draft) (value : String) : Setting → Except UsageError Draft
  | .config => .ok { d with options.config? := some value }
  | .output => .ok { d with options.output? := some value }
  | .exports => .ok { d with options.exports? := some value }
  | .symbolStart => .ok { d with options.symbolStart := value }
  | .threads => do
    let n ← readThreads value
    return { d with options.threads? := some n }

/-- The command that positional arguments name. -/
def readCommand : List String → Except UsageError Command
  | [] => .error .missingCommand
  | "table" :: rest => alone .table rest
  | "stress" :: rest => alone .stress rest
  | "check" :: rest => withManifest "check" .check rest
  | "gen" :: rest => withManifest "gen" .generate rest
  | other :: _ => .error (.unknownCommand other)
where
  alone (c : Command) : List String → Except UsageError Command
    | [] => .ok c
    | extra :: _ => .error (.unexpected extra)
  withManifest (name : String) (f : String → Command) : List String → Except UsageError Command
    | [] => .error (.missingManifest name)
    | manifest :: rest => alone (f manifest) rest

/-- Go on from what was read so far. -/
def readFrom (d : Draft) : List String → Except UsageError Request
  | [] => do return .perform (← readCommand d.positional) d.options
  | arg :: rest =>
    match spellings.lookup arg with
    | some .help => .ok .help
    | some .version => .ok .version
    | some .verbose => readFrom { d with options.verbose := true } rest
    | some (.setting s) =>
      match rest with
      | [] => .error (.missingValue s.text)
      | value :: rest => do readFrom (← d.set value s) rest
    | none =>
      if arg.startsWith "-" then .error (.unknownOption arg)
      else readFrom { d with positional := d.positional ++ [arg] } rest

/-- What a command line comes down to. -/
def read (args : List String) : Except UsageError Request := readFrom {} args

/-! ## Texts -/

def versionNumber : String := "0.2.0"

def versionText : String := "tierstate " ++ versionNumber ++ "\n"

def usageLines : List String := [
  "tierstate v" ++ versionNumber,
  "",
  "USAGE:",
  "    tierstate [OPTIONS] <COMMAND> [ARGS]",
  "",
  "COMMANDS:",
  "    table                Print the built-in synchronization policy table",
  "    check <MANIFEST>     Validate a declaration manifest",
  "    gen <MANIFEST>       Generate accessors from a declaration manifest",
  "    stress               Create and bind instances from many threads",
  "",
  "OPTIONS:",
  "    -h, --help             Print this help message",
  "    -v, --version          Print version information",
  "    --verbose              Log at debug level",
  "    --config <FILE>        Runtime configuration (default: $TIERSTATE_CONFIG,",
  "                           then the user config directory)",
  "    -o, --output <FILE>    gen: write Rust output to FILE (default: stdout)",
  "    --exports <FILE>       gen: write a linker version script to FILE",
  "    --prefix <PREFIX>      gen: symbol prefix for exported fields",
  "    --threads <N>          stress: number of threads (default: CPU count)",
  "",
  "EXAMPLES:",
  "    tierstate table",
  "    tierstate check state.toml",
  "    tierstate gen state.toml -o src/state_gen.rs --exports state.map --prefix PL_",
  "    tierstate stress --threads 50"]

def usageText : String := String.join (usageLines.map (· ++ "\n"))

end Arguments

end TieredState
