import TieredState.Session.State

/-!
# The C interface

Calls that reach the installed process with plain numbers and strings. A failure of any kind is a
number below zero or a null pointer. A string ends at its first zero byte, so one that holds such a
byte cannot be given out.
-/

namespace TieredState.Session

/-- A text as a C string, unless it holds a zero. -/
def foreignText (s : String) : Option String :=
  if s.toList.any (·.toNat = 0) then none else some s

/-- The text of a C string: its bytes up to the first zero, if they are text. -/
def readForeign (bytes : List UInt8) : Option String :=
  String.fromUTF8? ⟨(bytes.takeWhile (· ≠ 0)).toArray⟩

/-- Start and install a process from the configuration that is found, unless one is installed. -/
def foreignStart (s : Session) : Int × Session :=
  match s.world.installed? with
  | some _ => (0, s)
  | none =>
    match (Config.discover s.environment none : StateM FileTree _).run s.files with
    | (.error _, _) => (-1, s)
    | (.ok c, _) =>
      let (tok, w) := s.world.start c
      (0, s.withWorld (w.install tok).2)

/-- A text of the installed process, given out. -/
def foreignRead (s : Session)
    (read : World → Token → Except AccessError String) : Option String :=
  s.world.installed?.bind fun tok =>
    match read s.world tok with
    | .ok text => foreignText text
    | .error _ => none

/-- Replace the program name of the installed process. -/
def foreignSetProgramName (s : Session) (t : ThreadId) (bytes? : Option (List UInt8)) :
    Int × Session :=
  match bytes?.bind readForeign, s.world.installed? with
  | some name, some tok =>
    match s.world.setProgramName t tok name with
    | .ok (_, w) => (0, s.withWorld w)
    | .error _ => (-1, s)
  | _, _ => (-1, s)

/-- Whether the installed process restores from a dump image. -/
def foreignDoUndump (s : Session) : Int :=
  match s.world.installed?.bind fun tok => s.world.processes.get? tok with
  | some p => if p.doUndump then 1 else 0
  | none => -1

/-- A call through the C interface. -/
def foreignCall (s : Session) (t : ThreadId) : ForeignCall → Outcome × Session
  | .start => let (n, s') := s.foreignStart; (.ok (.number n), s')
  | .doUndump => (.ok (.number s.foreignDoUndump), s)
  | .shPath => (.ok (.optionalText (s.foreignRead fun w tok => w.shPath t tok)), s)
  | .programName => (.ok (.optionalText (s.foreignRead fun w tok => w.programName t tok)), s)
  | .setProgramName bytes? =>
    let (n, s') := s.foreignSetProgramName t bytes?
    (.ok (.number n), s')
  | .freeNull => (.ok .nothing, s)

end TieredState.Session
