import TieredState.CommandLine

/-!
# The program

`main` runs the command line on the files of the system. Log lines go to standard error, ahead of
what else is written there.
-/

namespace TieredState

/-- The cause of a failed operation on a file, by its number; some operations give the number with
its sign changed. -/
def fileError : IO.Error → FileError
  | .noFileOrDirectory _ code details | .inappropriateType _ code details
  | .permissionDenied _ code details | .alreadyExists _ code details
  | .invalidArgument _ code details | .resourceExhausted _ code details
  | .noSuchThing _ code details | .otherError code details =>
    match code.toInt32.toInt.natAbs with
    | 2 => .notFound
    | 20 => .notDirectory
    | 21 => .isDirectory
    | number => .other (details ++ " (os error " ++ toString number ++ ")")
  | e => .other (toString e)

/-- The files of the system. -/
instance : FileAccess IO where
  readText path := do
    match ← (IO.FS.readBinFile path).toBaseIO with
    | .ok content => return (String.fromUTF8? content).elim (.error .notText) .ok
    | .error e => return .error (fileError e)
  writeText path text := do
    match ← (IO.FS.writeFile path text).toBaseIO with
    | .ok () => return .ok ()
    | .error e => return .error (fileError e)
  isFile path := do
    match ← (do (← IO.FS.realPath path).metadata).toBaseIO with
    | .ok data => return data.type == .file
    | .error _ => return false

/-- The variables that the program looks at. -/
def readVariables : IO Variables := do
  let names := [Config.pathVariable, "XDG_CONFIG_HOME", "HOME"]
  return ⟨← names.filterMapM fun name => do return (← IO.getEnv name).map (name, ·)⟩

/-- The number of processors, or one where the system does not tell. -/
def processorCount : IO Nat := do
  match ← (IO.FS.lines "/proc/cpuinfo").toBaseIO with
  | .ok lines => return max 1 (lines.toList.filter (·.startsWith "processor")).length
  | .error _ => return 1

end TieredState

open TieredState in
def main (args : List String) : IO UInt32 := do
  let r ← CommandLine.run args (← readVariables) (← processorCount)
  let stderr ← IO.getStderr
  r.logs.forM fun line => stderr.putStrLn line.text
  IO.print r.stdout
  stderr.putStr r.stderr
  return r.exitCode.toUInt32
