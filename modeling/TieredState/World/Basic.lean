import TieredState.World.Error
import TieredState.World.Extensions
import TieredState.World.Counts
import TieredState.World.Hooks
import TieredState.World.Registry
import TieredState.Config

/-!
# The running state

A `World` holds everything that operations read and change: the processes with their global
variables, the instances with theirs, and what each thread keeps for itself: its bindings, the
storages of its variables and the locks it holds.

An instance is in the world as long as something refers to it, and a process likewise; a binding or
a handle alone keeps neither.
-/

namespace TieredState

/-! ## Instances -/

/-- Variables owned by one instance. -/
structure InstanceVars where
  -- Taint checks are on.
  tainting : Bool := false
  -- The status reported when the instance exits.
  exitCode : Int := 0
  -- Goes up whenever a named subroutine is redefined.
  subGeneration : Nat := 1
  -- Live scalar values.
  svCount : Nat := 0
  extensions : Extensions := {}
  deriving Inhabited

/-- One isolated runtime context. -/
structure Instance where
  -- The instance that this one was spawned from.
  parent? : Option InstanceId
  -- The process that created the instance.
  owner : Token
  vars : InstanceVars := {}
  alive : Bool := true

/-! ## Threads -/

/-- Variables owned by one binding of a thread. -/
structure ThreadVars where
  stackDepth : Nat := 0
  -- The message of the last error raised on the thread.
  lastError? : Option String := none
  -- The locale that the thread selected. It is kept for the thread's next binding to the same
  -- instance.
  locale? : Option String := none
  deriving DecidableEq, Repr, Inhabited

/-- The variables of one binding, and whether they are in use. -/
structure ThreadStorage where
  vars : ThreadVars := {}
  borrowed : Bool := false
  deriving DecidableEq, Repr, Inhabited

/-- A thread's tie to an instance. -/
structure Binding where
  target : InstanceId
  storage : StorageId
  deriving DecidableEq, Repr

/-- Access to the variables of one binding, from the thread that made it. It outlives the binding
and never brings it back. -/
abbrev Handle := Binding

/-- What a thread keeps for one process: its binding, and the variables of ended bindings whose
persistent fields wait for the next binding to the same instance. -/
structure Slot where
  binding? : Option Binding := none
  retired : Table InstanceId ThreadVars := ∅
  deriving Inhabited

structure Thread where
  slots : Table Token Slot := ∅
  storages : Table StorageId ThreadStorage := ∅
  held : Held := []
  nextStorage : Nat := 0
  deriving Inhabited

/-! ## Processes -/

/-- Where a process is in its life. -/
inductive Phase where
  | startup
  | running
  | shutDown
  deriving DecidableEq, Repr

namespace Phase

def display : Phase → String
  | startup => "Startup"
  | running => "Running"
  | shutDown => "ShutDown"

end Phase

/-- A process with its global variables. -/
structure Process where
  phase : Phase := .startup
  -- The greatest number of registered instances; zero is no limit.
  maxInstances : Nat
  registry : Registry := {}
  hooks : Hooks := {}
  doUndump : Bool
  earlyTaint : Bool
  shPath : String
  programName : String
  opRefs : OpRefTable := {}
  allocStats : AllocStats := {}
  -- Every binding made under the process is void.
  released : Bool := false

namespace Process

/-- A process as a configuration seeds it. -/
def ofConfig (c : Config) : Process where
  maxInstances := c.instances.maxInstances
  doUndump := c.process.doUndump
  earlyTaint := c.process.earlyTaint
  shPath := c.process.shPath
  programName := c.process.programName

end Process

/-! ## The world -/

structure World where
  processes : Table Token Process := ∅
  instances : Table InstanceId Instance := ∅
  threads : Table ThreadId Thread := ∅
  nextInstance : Nat := 1
  nextToken : Nat := 1
  -- The process that is the default of the whole program.
  installed? : Option Token := none

namespace World

/-- Whether an instance still exists and is alive. -/
def isLive (w : World) (id : InstanceId) : Bool := (w.instances.get? id).any (·.alive)

/-- Whether the bindings made under a process are void. -/
def isReleased (w : World) (tok : Token) : Bool :=
  match w.processes.get? tok with
  | some p => p.released
  | none => true

/-- What a thread keeps; a thread that nothing was done on yet keeps nothing. -/
def thread (w : World) (t : ThreadId) : Thread := (w.threads.get? t).getD {}

def setThread (w : World) (t : ThreadId) (th : Thread) : World :=
  { w with threads := w.threads.insert t th }

def modifyProcess (w : World) (tok : Token) (f : Process → Process) : World :=
  { w with processes := w.processes.modify tok f }

def modifyInstance (w : World) (id : InstanceId) (f : Instance → Instance) : World :=
  { w with instances := w.instances.modify id f }

/-- Change the variables in one storage of a thread. -/
def modifyThreadVars (w : World) (t : ThreadId) (s : StorageId) (f : ThreadVars → ThreadVars) :
    World :=
  let th := w.thread t
  w.setThread t { th with storages := th.storages.modify s fun st => { st with vars := f st.vars } }

/-! ### Locks -/

/-- Whether a thread may take a lock. An operation that runs nothing else while it has the lock
asks only this, since it gives the lock back before it returns. -/
def mayTake (w : World) (t : ThreadId) (l : Lock) : Except AccessError Unit :=
  match (w.thread t).held.acquire l with
  | .ok _ => .ok ()
  | .error held => .error (.lockOrder held l)

/-- Take a lock and keep it. -/
def take (w : World) (t : ThreadId) (l : Lock) : Except AccessError World :=
  match (w.thread t).held.acquire l with
  | .ok held => .ok (w.setThread t { w.thread t with held })
  | .error held => .error (.lockOrder held l)

/-- Give back a lock. -/
def giveBack (w : World) (t : ThreadId) (l : Lock) : World :=
  let th := w.thread t
  w.setThread t { th with held := th.held.release l }

end World

end TieredState
