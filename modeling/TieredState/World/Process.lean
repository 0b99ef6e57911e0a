import TieredState.World.Binding

/-!
# Operations on a process

Each operation acts on a world for a thread and a process. Those that run hooks in their middle are
given here in parts: what they do before any hook runs (`enroll`, `withdraw`, `beginShutdown`), the
hooks that are to run (`hooksFor`), what is done to an instance when its hooks have run
(`tearDown`), and the end of a shutdown (`releaseKey`).

An operation that is refused gives no world, or the world in which at most an identity was drawn.
-/

namespace TieredState

namespace Process

/-- A process with one more instance, which ends its startup. -/
def register (p : Process) (id : InstanceId) : Process :=
  { p with
    registry := p.registry.insert id
    phase := if p.phase = .startup then .running else p.phase }

/-- The process as text, with the number of its declared fields. -/
def display (p : Process) (tok : Token) (fields : Nat) : String :=
  "ProcessState \x7b phase: " ++ p.phase.display ++ ", thread_key: ThreadKey \x7b token: " ++
    toString tok.number ++ ", released: " ++ (if p.released then "true" else "false") ++
    " \x7d, fields: " ++ toString fields ++ " \x7d"

end Process

namespace World

/-- The process, as long as it is not shut down. -/
def live (w : World) (tok : Token) : Except AccessError Process :=
  match w.processes.get? tok with
  | none => .error .shutDown
  | some p => if p.phase = .shutDown then .error .shutDown else .ok p

/-- That an instance belongs to a process. -/
def checkOwner (w : World) (tok : Token) (id : InstanceId) : Except AccessError Unit :=
  if (w.instances.get? id).any (·.owner = tok) then .ok () else .error (.foreignInstance id)

/-- That an instance is alive. -/
def checkAlive (w : World) (id : InstanceId) : Except AccessError Unit :=
  if w.isLive id then .ok () else .error (.instanceDestroyed id)

/-- Start a process. -/
def start (w : World) (c : Config) : Token × World :=
  let tok : Token := ⟨w.nextToken⟩
  (tok, { w with
    processes := w.processes.insert tok (.ofConfig c)
    nextToken := w.nextToken + 1 })

/-- Make a process the default of the whole program. Only the first one becomes it. -/
def install (w : World) (tok : Token) : Bool × World :=
  match w.installed? with
  | some _ => (false, w)
  | none => (true, { w with installed? := some tok })

/-! ## Instances -/

/-- Draw an identity and register an instance under it. The identity is used up also when the
registry cannot be locked or is full. -/
def enroll (w : World) (t : ThreadId) (tok : Token) (parent? : Option InstanceId) :
    Except AccessError InstanceId × World :=
  match w.live tok with
  | .error e => (.error e, w)
  | .ok p =>
    let id : InstanceId := ⟨w.nextInstance⟩
    let w := { w with nextInstance := w.nextInstance + 1 }
    match w.mayTake t .registry with
    | .error e => (.error e, w)
    | .ok () =>
      if 0 < p.maxInstances ∧ p.maxInstances ≤ p.registry.size then
        (.error (.instanceLimit p.maxInstances), w)
      else
        (.ok id, { w.modifyProcess tok (·.register id) with
          instances := w.instances.insert id { parent?, owner := tok } })

/-- Register an instance that is spawned from another one of the same process. -/
def enrollChild (w : World) (t : ThreadId) (tok : Token) (parent : InstanceId) :
    Except AccessError InstanceId × World :=
  match w.checkOwner tok parent with
  | .error e => (.error e, w)
  | .ok () =>
    match w.checkAlive parent with
    | .error e => (.error e, w)
    | .ok () => w.enroll t tok (some parent)

/-- Take an instance out of the registry. -/
def withdraw (w : World) (t : ThreadId) (tok : Token) (id : InstanceId) :
    Except AccessError World := do
  let p ← w.live tok
  w.checkOwner tok id
  w.mayTake t .registry
  if p.registry.contains id then
    return w.modifyProcess tok fun p => { p with registry := p.registry.remove id }
  else .error (.instanceDestroyed id)

/-- Shut a process down: its phase, and the instances that are to be torn down, newest first. -/
def beginShutdown (w : World) (t : ThreadId) (tok : Token) :
    Except AccessError (List InstanceId × World) := do
  w.mayTake t .registry
  let p ← w.live tok
  let (drained, registry) := p.registry.drain
  return (drained, w.modifyProcess tok fun p => { p with phase := .shutDown, registry })

/-- The hooks that an event is to run, as they are registered now. -/
def hooksFor (w : World) (t : ThreadId) (tok : Token) (e : HookEvent) :
    Except AccessError (List CallbackId) := do
  w.mayTake t .hooks
  return ((w.processes.get? tok).map fun p => p.hooks.snapshot e).getD []

/-- Mark an instance dead and end the thread's binding to it. A binding that is in use stays. -/
def tearDown (w : World) (t : ThreadId) (tok : Token) (id : InstanceId) : World :=
  let w := w.modifyInstance id fun i => { i with alive := false }
  if w.bindingState t tok = .stale id then
    match w.unbindThread t tok with
    | .ok (_, w') => w'
    | .error _ => w
  else w

/-- What the registry of a live process says. -/
def readRegistry {α : Type} (w : World) (t : ThreadId) (tok : Token) (f : Registry → α) :
    Except AccessError α := do
  let p ← w.live tok
  w.mayTake t .registry
  return f p.registry

def instanceIds (w : World) (t : ThreadId) (tok : Token) : Except AccessError (List InstanceId) :=
  w.readRegistry t tok (·.members)

def instanceCount (w : World) (t : ThreadId) (tok : Token) : Except AccessError Nat :=
  w.readRegistry t tok (·.size)

/-- The registered instance with an identity. -/
def findInstance (w : World) (t : ThreadId) (tok : Token) (id : InstanceId) :
    Except AccessError (Option InstanceId) :=
  w.readRegistry t tok fun r => if r.contains id then some id else none

/-- The initial instance, unless it was destroyed. -/
def initialInstance (w : World) (t : ThreadId) (tok : Token) :
    Except AccessError (Option InstanceId) :=
  w.readRegistry t tok (·.initialMember?)

/-! ## Bindings -/

/-- Bind the thread to a live instance of the process. -/
def bind (w : World) (t : ThreadId) (tok : Token) (id : InstanceId) :
    Except AccessError Handle × World :=
  match w.live tok with
  | .error e => (.error e, w)
  | .ok _ =>
    match w.checkOwner tok id with
    | .error e => (.error e, w)
    | .ok () =>
      match w.checkAlive id with
      | .error e => (.error e, w)
      | .ok () => w.bindThread t tok id

/-- End the thread's binding. -/
def release (w : World) (t : ThreadId) (tok : Token) :
    Except AccessError (Option InstanceId × World) := do
  let _ ← w.live tok
  w.unbindThread t tok

/-- The instance that the thread is bound to, if it and the process are live. -/
def current (w : World) (t : ThreadId) (tok : Token) : Except AccessError InstanceId := do
  let _ ← w.live tok
  w.boundInstance t tok

/-- A handle to the thread's binding, if its instance and the process are live. -/
def currentThread (w : World) (t : ThreadId) (tok : Token) : Except AccessError Handle := do
  let _ ← w.live tok
  w.boundHandle t tok

/-- Take the lock on an instance's variables. -/
def enterInstance (w : World) (t : ThreadId) (id : InstanceId) : Except AccessError World := do
  w.checkAlive id
  w.take t .instanceVars

/-- Take the lock on the variables of the thread's current instance. -/
def enterCurrent (w : World) (t : ThreadId) (tok : Token) :
    Except AccessError (InstanceId × World) := do
  let id ← w.current t tok
  return (id, ← w.enterInstance t id)

/-- Take the variables of the thread's binding into use. -/
def enterThread (w : World) (t : ThreadId) (tok : Token) : Except AccessError (Handle × World) := do
  let h ← w.currentThread t tok
  return (h, ← w.borrow t h)

/-- Use the variables of the thread's current instance. `f` does nothing else, so the lock is given
back before the call returns. -/
def withInstance {α : Type} (w : World) (t : ThreadId) (tok : Token)
    (f : InstanceVars → α × InstanceVars) : Except AccessError (α × World) := do
  let (id, w) ← w.enterCurrent t tok
  match w.instances.get? id with
  | none => .error (.instanceDestroyed id)
  | some i =>
    let (a, vars) := f i.vars
    return (a, (w.modifyInstance id fun i => { i with vars }).giveBack t .instanceVars)

/-- Change the variables of the thread's binding. -/
def changeThread (w : World) (t : ThreadId) (tok : Token) (f : ThreadVars → ThreadVars) :
    Except AccessError World := do
  let (h, w) ← w.enterThread t tok
  return (w.modifyThreadVars t h.storage f).endBorrow t h.storage

/-! ## Hooks -/

def addHook (w : World) (t : ThreadId) (tok : Token) (e : HookEvent) (c : CallbackId) :
    Except AccessError (HookId × World) := do
  let p ← w.live tok
  w.mayTake t .hooks
  let (id, hooks) := p.hooks.register e c
  return (id, w.modifyProcess tok fun p => { p with hooks })

def removeHook (w : World) (t : ThreadId) (tok : Token) (id : HookId) :
    Except AccessError (Bool × World) := do
  let p ← w.live tok
  w.mayTake t .hooks
  let (found, hooks) := p.hooks.remove id
  return (found, w.modifyProcess tok fun p => { p with hooks })

/-! ## Global variables -/

/-- Write a flag that only the startup may write. The phase leaves the startup under the registry's
lock, so the write takes it too. -/
def setStartupFlag (w : World) (t : ThreadId) (tok : Token) (field : String)
    (f : Process → Process) : Except AccessError World := do
  w.mayTake t .registry
  let phase : Phase := ((w.processes.get? tok).map (·.phase)).getD .shutDown
  match phase with
  | .startup => return w.modifyProcess tok f
  | .running => .error (.startupSealed field)
  | .shutDown => .error .shutDown

def setDoUndump (w : World) (t : ThreadId) (tok : Token) (b : Bool) : Except AccessError World :=
  w.setStartupFlag t tok "do_undump" fun p => { p with doUndump := b }

def setEarlyTaint (w : World) (t : ThreadId) (tok : Token) (b : Bool) : Except AccessError World :=
  w.setStartupFlag t tok "early_taint" fun p => { p with earlyTaint := b }

def shPath (w : World) (t : ThreadId) (tok : Token) : Except AccessError String := do
  let p ← w.live tok
  w.mayTake t .shPath
  return p.shPath

/-- Replace the shell path and give the previous one. -/
def setShPath (w : World) (t : ThreadId) (tok : Token) (s : String) :
    Except AccessError (String × World) := do
  let p ← w.live tok
  w.mayTake t .shPath
  return (p.shPath, w.modifyProcess tok fun p => { p with shPath := s })

def programName (w : World) (t : ThreadId) (tok : Token) : Except AccessError String := do
  let p ← w.live tok
  w.mayTake t .programName
  return p.programName

/-- Replace the program name and give the previous one. -/
def setProgramName (w : World) (t : ThreadId) (tok : Token) (s : String) :
    Except AccessError (String × World) := do
  let p ← w.live tok
  w.mayTake t .programName
  return (p.programName, w.modifyProcess tok fun p => { p with programName := s })

/-- Change the reference counts and give the count that results. -/
def changeOpRefs (w : World) (t : ThreadId) (tok : Token) (f : OpRefTable → Nat × OpRefTable) :
    Except AccessError (Nat × World) := do
  let p ← w.live tok
  w.mayTake t .opRefcount
  let (n, opRefs) := f p.opRefs
  return (n, w.modifyProcess tok fun p => { p with opRefs })

/-- Change the figures on allocation. -/
def changeAllocStats (w : World) (t : ThreadId) (tok : Token) (f : AllocStats → AllocStats) :
    Except AccessError World := do
  let _ ← w.live tok
  w.mayTake t .alloc
  return w.modifyProcess tok fun p => { p with allocStats := f p.allocStats }

def allocStats (w : World) (t : ThreadId) (tok : Token) : Except AccessError AllocStats := do
  let p ← w.live tok
  w.mayTake t .alloc
  return p.allocStats

end World

end TieredState
