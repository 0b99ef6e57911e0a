import TieredState.Session.Call

/-!
# Running a script

A machine is a session with a stack of what is under way: bodies, which are the steps inside a
closure or a hook, and dispatches, which are operations that run hooks. `Machine.step` takes one
step of the topmost of them. A body that is done gives back what its closure took and hands its
results to the body below; one that is unwound gives it back too, and hands over nothing.
-/

namespace TieredState

/-- What a body runs in, and what has to be undone when it ends. -/
inductive Owner where
  | attempt
  -- A closure for which the thread holds a lock.
  | lock (l : Lock)
  -- A closure that uses the variables of a binding.
  | storage (s : StorageId)
  -- A call of a hook.
  | hook (tag : String) (target : InstanceId)
  deriving DecidableEq, Repr

/-- Steps under way. -/
structure Body where
  owner : Owner
  context : Context
  -- The steps still to be taken.
  pending : List Step
  -- The outcomes of those taken, the last one first.
  done : List Outcome := []
  -- The body is a whole job of a worker, at which unwinding stops.
  job : Bool := false
  -- What the closure keeps in existence.
  tokens : List Token := []
  ids : List InstanceId := []

/-- One thing under way. -/
inductive Frame where
  | body (b : Body)
  | dispatch (d : Dispatch) (job : Bool)

namespace Frame

/-- The thread that the frame runs on. -/
def thread : Frame → ThreadId
  | body b => b.context.thread
  | dispatch d _ => d.thread

/-- The processes that the frame keeps in existence. -/
def tokens : Frame → List Token
  | body b => b.tokens
  | dispatch d _ => [d.process]

/-- The instances that the frame keeps in existence. -/
def ids : Frame → List InstanceId
  | body b => b.ids
  | dispatch d _ =>
    d.target :: match d.task with
      | .shutdown rest _ => rest
      | _ => []

end Frame

namespace Session

/-- Give back what a body's closure took. -/
def undo (s : Session) (b : Body) : Session :=
  match b.owner with
  | .lock l => s.withWorld (s.world.giveBack b.context.thread l)
  | .storage storage => s.withWorld (s.world.endBorrow b.context.thread storage)
  | .attempt | .hook _ _ => s

/-- The body of a closure for which a lock was taken. -/
def lockedBody (ctx : Context) (l : Lock) (focus : Focus) (tokens : List Token)
    (ids : List InstanceId) (steps : List Step) : Body where
  owner := .lock l
  context := { ctx with focus }
  pending := steps
  tokens := tokens
  ids := ids

/-- The body of a closure on the variables of a binding. -/
def borrowedBody (ctx : Context) (h : Handle) (tokens : List Token) (steps : List Step) : Body where
  owner := .storage h.storage
  context := { ctx with focus := .threadVars ctx.thread h.storage }
  pending := steps
  tokens := tokens

/-- Open the closure for which an access was asked, unless it was refused. -/
def opened {α : Type} (s : Session) (r : Except AccessError (α × World)) (f : α → Body) :
    Except Fault (Body × Session) :=
  match r with
  | .ok (a, w) => .ok (f a, s.withWorld w)
  | .error e => .error (.access e)

/-- The lock of a global variable, and how it is in hand. -/
def sharedFocus (tok : Token) : Shared → Lock × Focus
  | .registry => (.registry, .registry tok)
  | .hooks => (.hooks, .hooks tok true)
  | .hooksRead => (.hooks, .hooks tok false)
  | .shPath => (.shPath, .text (.shPath tok) true)
  | .shPathRead => (.shPath, .text (.shPath tok) false)
  | .programName => (.programName, .text (.programName tok) true)
  | .opRefcount => (.opRefcount, .references tok)
  | .allocStats => (.alloc, .allocStats tok)

/-- Open a closure. -/
def enter (s : Session) (ctx : Context) (o : Opening) (steps : List Step) :
    Except Fault (Body × Session) :=
  match o with
  | .ofInstance i => do
    let id ← s.instanceNamed ctx i
    s.opened ((s.world.enterInstance ctx.thread id).map (id, ·)) fun id =>
      lockedBody ctx .instanceVars (.instanceVars id) [] [id] steps
  | .ofCurrent p => do
    let tok ← s.process p
    s.opened (s.world.enterCurrent ctx.thread tok) fun id =>
      lockedBody ctx .instanceVars (.instanceVars id) [tok] [id] steps
  | .ofThread p => do
    let tok ← s.process p
    s.opened (s.world.enterThread ctx.thread tok) fun h => borrowedBody ctx h [tok] steps
  | .ofHandle h => do
    let handle ← s.handleNamed ctx.thread h
    s.opened ((s.world.borrow ctx.thread handle).map (handle, ·)) fun h =>
      borrowedBody ctx h [] steps
  | .ofShared p shared => do
    let tok ← s.process p
    let (l, focus) := sharedFocus tok shared
    s.opened ((s.world.take ctx.thread l).map ((), ·)) fun () =>
      lockedBody ctx l focus [tok] [] steps
  | .ofCell c => do
    let (id, cell) ← s.cellNamed c
    if cell.kind = .flag then .error .misplaced
    else
      s.opened ((s.world.take ctx.thread cell.lock).map ((), ·)) fun () =>
        lockedBody ctx cell.lock (.text (.cell id) true) [] [] steps
  | .ofCellRead c => do
    let (id, cell) ← s.cellNamed c
    if cell.kind ≠ .readMostly then .error .misplaced
    else
      s.opened ((s.world.take ctx.thread cell.lock).map ((), ·)) fun () =>
        lockedBody ctx cell.lock (.text (.cell id) false) [] [] steps
  | .attempt => .ok ({ owner := .attempt, context := ctx, pending := steps }, s)

/-- Register a hook that runs steps. -/
def registerHook (s : Session) (ctx : Context) (r : HookRequest) (steps : List Step) :
    Outcome × Session :=
  let (callback, s') := s.addCallback { tag := r.tag, limit := r.limit, body := steps }
  match r.process? with
  | some p =>
    match s.process p with
    | .error e => (.error e, s)
    | .ok tok =>
      match s'.world.addHook ctx.thread tok r.event callback with
      | .error e => (.error (.access e), s)
      | .ok (id, w) => (.ok (.text id.display), (s'.withWorld w).keepHook r.as? id)
  | none =>
    match ctx.focus with
    | .hooks tok true =>
      match s'.world.processes.get? tok with
      | none => (.error .misplaced, s)
      | some p =>
        let (id, hooks) := p.hooks.register r.event callback
        (.ok (.text id.display),
          (s'.modifyProcess tok fun p => { p with hooks }).keepHook r.as? id)
    | _ => (.error .misplaced, s)

end Session

/-- A session with what is under way in it. -/
structure Machine where
  session : Session
  -- What is under way, the innermost first.
  stack : List Frame := []
  -- The whole steps still to be taken.
  script : List Step
  -- The reports of those taken, the last one first.
  reports : List Report := []

namespace Machine

/-- Whether the script has been run to its end. -/
def isFinished (m : Machine) : Bool := m.stack.isEmpty && m.script.isEmpty

/-- The processes and the instances that what is under way keeps in existence. -/
def heldTokens (m : Machine) : List Token := m.stack.flatMap Frame.tokens

def heldIds (m : Machine) : List InstanceId := m.stack.flatMap Frame.ids

/-- Hand an outcome to the body on top, or report it with the calls of hooks there were. -/
def deliver (m : Machine) (o : Outcome) : Machine :=
  match m.stack with
  | .body b :: below => { m with stack := .body { b with done := o :: b.done } :: below }
  | .dispatch _ _ :: _ => m
  | [] =>
    { m with
      reports := ⟨o, m.session.events⟩ :: m.reports
      session := { m.session with events := [] } }

/-- Unwind the stack to the nearest attempt or job, or to the whole step. What was taken on the way
is given back. -/
def unwind (session : Session) : List Frame → Session × List Frame
  | [] => (session, [])
  | .body b :: below =>
    let session := session.undo b
    if b.job || b.owner = .attempt then (session, below) else unwind session below
  | .dispatch _ job :: below => if job then (session, below) else unwind session below

/-- Let the step at hand fail. -/
def fail (m : Machine) : Machine :=
  let (session, stack) := unwind m.session m.stack
  { m with session, stack }.deliver (.error .failed)

/-- Go on with an operation as far as it has come. -/
def proceed (m : Machine) (job : Bool) : Progress → Machine
  | .done o session => { m with session }.deliver o
  | .running d session => { m with session, stack := .dispatch d job :: m.stack }

/-- The context of a step, and whether it is a job of a worker. -/
def contextOf (ctx : Context) (s : Step) : Context × Bool :=
  match s.on? with
  | some name => ({ thread := .worker name }, true)
  | none => (ctx, false)

/-- Take a step in the context that is its own. -/
def perform (m : Machine) (ctx : Context) (job : Bool) : Step → Machine
  | .call _ .fail => if job then m.deliver (.error .failed) else m.fail
  | .call _ c => m.proceed job (m.session.call ctx c)
  | .closure _ o steps =>
    match m.session.enter ctx o steps with
    | .error e => m.deliver (.error e)
    | .ok (b, session) => { m with session, stack := .body { b with job } :: m.stack }
  | .register _ r steps =>
    let (o, session) := m.session.registerHook ctx r steps
    { m with session }.deliver o

/-- Take a step. A worker exists from its first step on. -/
def take (m : Machine) (ctx : Context) (s : Step) : Machine :=
  let (ctx, job) := contextOf ctx s
  { m with session := m.session.touch ctx.thread }.perform ctx job s

/-- End a body whose steps are all taken, above the frames `below`. -/
def close (m : Machine) (b : Body) (below : List Frame) : Machine :=
  let m := { m with session := m.session.undo b, stack := below }
  let results := b.done.reverse
  match b.owner with
  | .hook tag target => { m with session := m.session.tell tag target (some results) }
  | _ => m.deliver (.ok (.results results))

/-- Call the next hook of a dispatch, or go on with its operation, above the frames `below`. -/
def advance (m : Machine) (d : Dispatch) (job : Bool) (below : List Frame) : Machine :=
  match d.pending with
  | [] => { m with stack := below }.proceed job (m.session.finish d)
  | id :: rest =>
    let stack := .dispatch { d with pending := rest } job :: below
    match m.session.callbacks.get? id with
    | none => { m with stack }
    | some c =>
      let session := { m.session with callbacks := m.session.callbacks.insert id c.called }
      if c.runs then
        let b : Body := {
          owner := .hook c.tag d.target
          context := { thread := d.thread, self? := some d.target }
          pending := c.body }
        { m with session, stack := .body b :: stack }
      else { m with session := session.tell c.tag d.target none, stack }

/-- The thread that the next step is taken on. -/
def actor (m : Machine) : ThreadId :=
  match m.stack with
  | .body b :: _ =>
    match b.pending with
    | s :: _ => (contextOf b.context s).1.thread
    | [] => b.context.thread
  | .dispatch d _ :: _ => d.thread
  | [] =>
    match m.script with
    | s :: _ => (contextOf { thread := .main } s).1.thread
    | [] => .main

/-- Take the next step, as far as what exists is concerned. -/
def act (m : Machine) : Machine :=
  match m.stack with
  | .body b :: below =>
    match b.pending with
    | s :: rest => { m with stack := .body { b with pending := rest } :: below }.take b.context s
    | [] => m.close b below
  | .dispatch d job :: below => m.advance d job below
  | [] =>
    match m.script with
    | s :: rest => { m with script := rest }.take { thread := .main } s
    | [] => m

/-- Drop what nothing refers to any more, on the thread `t`. -/
def sweep (m : Machine) (t : ThreadId) : Machine :=
  { m with session := m.session.sweep t m.heldTokens m.heldIds }

/-- Take the next step, and drop what nothing refers to after it. -/
def step (m : Machine) : Machine := m.act.sweep m.actor

/-- Take up to `n` steps. -/
def run : Nat → Machine → Machine
  | 0, m => m
  | n + 1, m => if m.isFinished then m else run n m.step

end Machine

namespace Session

/-- A bound on the number of steps of a machine that runs a script: each of the steps of the script
and of its hooks may dispatch an event to every instance and every hook that there can be. -/
def stepBound (script : List Step) : Nat := Nat.pow (Step.weights script + 4) 3

/-- Run a script from its first to its last step. -/
def runScript (s : Session) (script : List Step) : List Report :=
  (Machine.run (stepBound script) { session := s, script }).reports.reverse

end Session

end TieredState
