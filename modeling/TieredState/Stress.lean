import TieredState.Builtin
import TieredState.World.Process

/-!
# Stress

Many workers share one process. Each creates an instance of its own, binds its thread to it, leaves
a mark in the variables of both, and checks that it finds its own mark and its own instance again.

`Stress.step` lets one worker make its next call, and a schedule is the list of the workers in the
order in which they do. The outcome is the same for every schedule that lets all of them finish.
-/

namespace TieredState

/-- Why a worker failed. -/
inductive WorkerError where
  | access (e : AccessError)
  | wrongInstance (worker : Nat) (found own : InstanceId)
  | wrongExitCode (worker : Nat) (found : Int) (own : InstanceId)
  deriving DecidableEq, Repr

namespace WorkerError

def message : WorkerError → String
  | access e => e.message
  | wrongInstance n found own =>
    "thread " ++ toString n ++ " resolved " ++ found.label ++ " instead of its own " ++ own.label
  | wrongExitCode n found own =>
    "thread " ++ toString n ++ " read exit code " ++ toString found ++ " from " ++ own.label ++
      ", wrote " ++ toString n

end WorkerError

/-- The call that a worker makes next. -/
inductive Stage where
  | create
  | bind (own : InstanceId)
  | mark (own : InstanceId)
  | markThread (own : InstanceId)
  | readMark (own : InstanceId)
  | resolve (own : InstanceId) (seen : Int)
  | release (own : InstanceId)
  | finished (own : InstanceId)
  | failed (e : WorkerError)
  deriving DecidableEq, Repr

namespace Stage

/-- Whether a worker has made its last call. -/
def isOver : Stage → Bool
  | finished _ | failed _ => true
  | _ => false

/-- The number of calls of a worker that does not fail. -/
def count : Nat := 7

def error? : Stage → Option WorkerError
  | failed e => some e
  | _ => none

end Stage

/-- The thread of a worker. -/
def workerThread (n : Nat) : ThreadId := .worker (toString n)

/-- The exit code that a worker leaves as its mark: its number, as a signed word of 32 bits. -/
def workerMark (n : Nat) : Int := (n : Int).bmod UInt32.size

namespace Stage

/-- What the worker `n` does next once a call has an answer. -/
def after {α : Type} (w : World) (log : List LogLine) (r : Except AccessError (α × World))
    (f : α → Stage) : Stage × World × List LogLine :=
  match r with
  | .ok (a, w') => (f a, w', log)
  | .error e => (failed (.access e), w, [])

/-- The next call of the worker `n`. -/
def next (w : World) (tok : Token) (n : Nat) : Stage → Stage × World × List LogLine
  | create =>
    match w.enroll (workerThread n) tok none with
    | (.ok own, w') => (bind own, w', [⟨.debug, .registry⟩])
    | (.error e, w') => (failed (.access e), w', [])
  | bind own =>
    match w.bind (workerThread n) tok own with
    | (.ok _, w') => (mark own, w', [⟨.debug, .binding⟩])
    | (.error e, w') => (failed (.access e), w', [])
  | mark own =>
    after w [⟨.trace, .binding⟩]
      (w.withInstance (workerThread n) tok fun v => ((), { v with exitCode := workerMark n }))
      fun () => markThread own
  | markThread own =>
    after w []
      ((w.changeThread (workerThread n) tok fun v => { v with stackDepth := n }).map ((), ·))
      fun () => readMark own
  | readMark own =>
    after w [⟨.trace, .binding⟩]
      (w.withInstance (workerThread n) tok fun v => (v.exitCode, v))
      (resolve own)
  | resolve own seen =>
    after w [⟨.trace, .binding⟩] ((w.current (workerThread n) tok).map (·, w)) fun id =>
      if id ≠ own then failed (.wrongInstance n id own)
      else if seen ≠ workerMark n then failed (.wrongExitCode n seen own)
      else release own
  | release own =>
    after w [⟨.debug, .binding⟩] (w.release (workerThread n) tok) fun _ => finished own
  | finished own => (finished own, w, [])
  | failed e => (failed e, w, [])

end Stage

/-- The workers at some point of a run. -/
structure Stress where
  world : World
  token : Token
  stages : List Stage
  log : List LogLine

namespace Stress

/-- A process from a configuration, and the workers that wait for the start. -/
def start (c : Config) (threads : Nat) : Stress :=
  let (token, world) := ({} : World).start c
  { world, token
    stages := List.replicate threads .create
    log := Builtin.policyLog false ++ [⟨.debug, .binding⟩, ⟨.debug, .registry⟩] }

/-- Let the worker `n` make its next call. -/
def step (s : Stress) (n : Nat) : Stress :=
  match s.stages[n]? with
  | none => s
  | some stage =>
    let (stage', world, lines) := stage.next s.world s.token n
    { s with world, stages := s.stages.set n stage', log := s.log ++ lines }

/-- Let workers make calls in the order of a schedule. -/
def run (s : Stress) (schedule : List Nat) : Stress := schedule.foldl step s

/-- Whether all workers have made their last call. -/
def isOver (s : Stress) : Bool := s.stages.all (·.isOver)

/-- The schedule in which one worker after the other makes all of its calls. -/
def inTurn (threads : Nat) : List Nat :=
  (List.range threads).flatMap (List.replicate Stage.count)

/-! ## The end of a run -/

/-- What a run comes to. -/
structure Report where
  threads : Nat
  registered : Nat
  failures : Nat
  tornDown : Nat
  -- The error of the first worker, in the order of their numbers, that failed.
  error? : Option WorkerError
  deriving DecidableEq, Repr

/-- Shut a process down that has no hooks. -/
def shutDown (w : World) (t : ThreadId) (tok : Token) : Except AccessError (Nat × World) := do
  let (drained, w) ← w.beginShutdown t tok
  return (drained.length,
    (drained.foldl (fun w id => w.tearDown t tok id) w).releaseKey t tok)

/-- Count what the workers have left behind, and shut the process down. -/
def report (s : Stress) : Except AccessError Report := do
  let registered ← s.world.instanceCount .main s.token
  let (tornDown, _) ← shutDown s.world .main s.token
  let errors := s.stages.filterMap (·.error?)
  return {
    threads := s.stages.length
    registered
    failures := errors.length
    tornDown
    error? := errors.head? }

/-- The log lines of a whole run. -/
def fullLog (s : Stress) : List LogLine := s.log ++ [⟨.debug, .binding⟩, ⟨.info, .registry⟩]

end Stress

namespace Stress.Report

def text (r : Report) : String :=
  "threads: " ++ toString r.threads ++ ", instances registered: " ++ toString r.registered ++
    ", failures: " ++ toString r.failures ++ "\nshut down " ++ toString r.tornDown ++ " instances\n"

end Stress.Report

end TieredState
