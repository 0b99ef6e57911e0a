import TieredState.Session.Dispatch
import TieredState.Session.Focus
import TieredState.Session.Foreign

/-!
# Calls

What each step without steps inside does. Only the calls that create, destroy or shut down may leave
hooks to be run.
-/

namespace TieredState.Session

/-- The outcome of an operation that changes nothing. -/
def answer {α : Type} (f : α → Answer) : Except AccessError α → Outcome
  | .ok a => .ok (f a)
  | .error e => .error (.access e)

/-- The outcome of an operation that changes the world when it succeeds. -/
def change {α : Type} (s : Session) (f : α → Answer) : Except AccessError (α × World) → Outcome × Session
  | .ok (a, w) => (.ok (f a), s.withWorld w)
  | .error e => (.error (.access e), s)

/-- The outcome of an operation that changes the world when it succeeds, and tells nothing. -/
def effect (s : Session) (r : Except AccessError World) : Outcome × Session :=
  s.change (fun () => .nothing) (r.map ((), ·))

def number (n : Nat) : Answer := .number n

/-- What a process tells of itself. -/
def report (s : Session) (t : ThreadId) (tok : Token) (p : Process) : ProcessReport where
  phase := p.phase
  binding := s.world.bindingState t tok
  instances := s.world.instanceIds t tok
  initial := s.world.initialInstance t tok
  shPath := s.world.shPath t tok
  programName := s.world.programName t tok
  doUndump := p.doUndump
  earlyTaint := p.earlyTaint
  current := s.world.current t tok
  display := p.display tok s.fieldCount

/-- A process's key as text. -/
def keyText (tok : Token) (p : Process) : String :=
  "ThreadKey \x7b token: " ++ toString tok.number ++ ", released: " ++
    (if p.released then "true" else "false") ++ " \x7d"

/-- The outcome of looking for an instance that is to be kept. -/
def keepAnswer (s : Session) (as? : Option Name) (r : Except AccessError (Option InstanceId)) :
    Outcome × Session :=
  match r with
  | .ok id? => (.ok (.identity id?), s.keepFound as? id?)
  | .error e => (.error (.access e), s)

/-- The calls on a process that run no hooks. -/
def plainProcessCall (s : Session) (ctx : Context) (tok : Token) (p : Process) :
    ProcessCall → Outcome × Session
  | .report => (.ok (.report (s.report ctx.thread tok p)), s)
  | .phase => (.ok (.text p.phase.display), s)
  | .token => (.ok (number tok.number), s)
  | .key => (.ok (.text (keyText tok p)), s)
  | .policySize => (.ok (number s.fieldCount), s)
  | .install => let (first, w) := s.world.install tok; (.ok (.flag first), s.withWorld w)
  | .bindingState => (.ok (.bindingState (s.world.bindingState ctx.thread tok)), s)
  | .doUndump => (.ok (.flag p.doUndump), s)
  | .earlyTaint => (.ok (.flag p.earlyTaint), s)
  | .instances => (answer .identities (s.world.instanceIds ctx.thread tok), s)
  | .count => (answer number (s.world.instanceCount ctx.thread tok), s)
  | .find i as? =>
    match s.instanceNamed ctx i with
    | .error e => (.error e, s)
    | .ok id => s.keepAnswer as? (s.world.findInstance ctx.thread tok id)
  | .initial as? => s.keepAnswer as? (s.world.initialInstance ctx.thread tok)
  | .bind i as? =>
    match s.instanceToKeep ctx (some tok) i with
    | .error e => (.error e, s)
    | .ok id =>
      let (r, w) := s.world.bind ctx.thread tok id
      let s := s.withWorld w
      match r with
      | .ok h => (.ok (.identity (some h.target)), s.keepHandle ctx.thread as? h)
      | .error e => (.error (.access e), s)
  | .release => s.change .identity (s.world.release ctx.thread tok)
  | .current as? =>
    match s.world.current ctx.thread tok with
    | .ok id => (.ok (.identity (some id)), s.keepInstance as? id)
    | .error e => (.error (.access e), s)
  | .currentThread as? =>
    match s.world.currentThread ctx.thread tok with
    | .ok h => (.ok (.identity (some h.target)), s.keepHandle ctx.thread as? h)
    | .error e => (.error (.access e), s)
  | .removeHook h =>
    match s.hookNamed h with
    | .error e => (.error e, s)
    | .ok id => s.change .flag (s.world.removeHook ctx.thread tok id)
  | .setDoUndump b => s.effect (s.world.setDoUndump ctx.thread tok b)
  | .setEarlyTaint b => s.effect (s.world.setEarlyTaint ctx.thread tok b)
  | .forceDoUndump b => (.ok (.flag b), s.modifyProcess tok fun p => { p with doUndump := b })
  | .shPath => (answer .text (s.world.shPath ctx.thread tok), s)
  | .programName => (answer .text (s.world.programName ctx.thread tok), s)
  | .setShPath text => s.change .text (s.world.setShPath ctx.thread tok text)
  | .setProgramName text => s.change .text (s.world.setProgramName ctx.thread tok text)
  | .increment op => s.change number (s.world.changeOpRefs ctx.thread tok (·.increment op))
  | .decrement op => s.change number (s.world.changeOpRefs ctx.thread tok (·.decrement op))
  | .recordAlloc n => s.effect (s.world.changeAllocStats ctx.thread tok (·.recordAlloc n))
  | .recordFree n => s.effect (s.world.changeAllocStats ctx.thread tok (·.recordFree n))
  | .allocStats => (answer .allocStats (s.world.allocStats ctx.thread tok), s)
  | .create _ | .spawn _ _ | .destroy _ | .shutdown => (.error .misplaced, s)

/-- A call on a process. -/
def processCall (s : Session) (ctx : Context) (tok : Token) (c : ProcessCall) : Progress :=
  match c with
  | .create as? => s.beginCreate ctx.thread tok as? (s.world.enroll ctx.thread tok none)
  | .spawn parent as? =>
    match s.instanceNamed ctx parent with
    | .error e => .done (.error e) s
    | .ok id => s.beginCreate ctx.thread tok as? (s.world.enrollChild ctx.thread tok id)
  | .destroy i =>
    match s.instanceNamed ctx i with
    | .error e => .done (.error e) s
    | .ok id => s.beginDestroy ctx.thread tok id
  | .shutdown => s.beginShutdown ctx.thread tok
  | c =>
    match s.world.processes.get? tok with
    | none => .done (.error .misplaced) s
    | some p => let (o, s') := s.plainProcessCall ctx tok p c; .done o s'

/-- A call on a cell. The lock is given back before the call returns. -/
def cellCall (s : Session) (t : ThreadId) (name : Name) (id : CellId) (cell : LockedCell) :
    CellCall → Outcome × Session
  | .read =>
    if cell.kind = .flag then (.ok (content cell.content), s)
    else (answer (fun () => content cell.content) (s.world.mayTake t cell.lock), s)
  | .write v =>
    let written := s.modifyCell id fun c => { c with content := v }
    if cell.kind = .flag then (.ok .nothing, written)
    else
      match s.world.mayTake t cell.lock with
      | .ok () => (.ok (content cell.content), written)
      | .error e => (.error (.access e), s)
  | .lock => (.ok (.lock cell.lock), s)
  | .replace v =>
    (.ok (content cell.content), s.modifyCell id fun c => { c with content := v })
  | .unwrap =>
    (.ok (content cell.content), { s with cellNames := s.cellNames.erase name })
where
  content : CellContent → Answer
    | .text text => .text text
    | .flag b => .flag b

/-- Start a process under a name. -/
def startProcess (s : Session) (p : Name) (config? : Option String) : Outcome × Session :=
  match Config.parse (config?.getD "") with
  | .error e => (.error (.config e), s)
  | .ok c =>
    let (tok, w) := s.world.start c
    (.ok .nothing, { s.withWorld w with processes := s.processes.insert p tok })

/-- What an instance tells of itself. -/
def instanceInfo (s : Session) (ctx : Context) (i : Name) : Outcome := do
  let id ← s.instanceNamed ctx i
  match s.world.instances.get? id with
  | some inst => return .instanceInfo ⟨id, inst.parent?, inst.alive⟩
  | none => .error (.noSuchName i)

/-- What a handle tells of itself. -/
def handleInfo (s : Session) (t : ThreadId) (h : Name) : Outcome := do
  let handle ← s.handleNamed t h
  return .handleInfo ⟨handle.target, s.world.isBound t handle, s.world.handleInstance handle⟩

/-- End a worker thread: its bindings, storages and handles go. -/
def endThread (s : Session) (name : String) : Outcome × Session :=
  let t : ThreadId := .worker name
  (.ok (.flag (s.world.threads.contains t)),
    { s.withWorld { s.world with threads := s.world.threads.erase t } with
      handles := s.handles.filter fun key _ => key.1 ≠ t })

/-- Keep the installed process under a name. -/
def keepInstalled (s : Session) (p : Name) : Outcome × Session :=
  match s.world.installed? with
  | some tok => (.ok (.flag true), { s with processes := s.processes.insert p tok })
  | none => (.ok (.flag false), s)

/-- Make a cell under a name. -/
def newCell (s : Session) (name : Name) (cell : LockedCell) : Outcome × Session :=
  let id : CellId := ⟨s.nextCell⟩
  (.ok .nothing, { s with
    cellNames := s.cellNames.insert name id
    cells := s.cells.insert id cell
    nextCell := s.nextCell + 1 })

/-- A call other than one on a process. -/
def plainCall (s : Session) (ctx : Context) : Call → Outcome × Session
  | .start p config? => s.startProcess p config?
  | .dropProcess p =>
    (.ok (.flag (s.processes.contains p)), { s with processes := s.processes.erase p })
  | .dropInstance i =>
    (.ok (.flag (s.instances.contains i)), { s with instances := s.instances.erase i })
  | .endThread name => s.endThread name
  | .heldLocks => (.ok (.locks (s.world.thread ctx.thread).held), s)
  | .isInstalled => (.ok (.flag s.world.installed?.isSome), s)
  | .keepInstalled p => s.keepInstalled p
  | .instanceInfo i => (s.instanceInfo ctx i, s)
  | .handleInfo h => (s.handleInfo ctx.thread h, s)
  | .dropHandle h => (.ok .nothing, { s with handles := s.handles.erase (ctx.thread, h) })
  | .focus c => s.focusCall ctx c
  | .newCell name kind lock v => s.newCell name ⟨kind, lock, v⟩
  | .cell name c =>
    match s.cellNamed name with
    | .ok (id, cell) => s.cellCall ctx.thread name id cell c
    | .error e => (.error e, s)
  | .foreign c => s.foreignCall ctx.thread c
  | .process _ _ | .fail => (.error .misplaced, s)

/-- A call. -/
def call (s : Session) (ctx : Context) (c : Call) : Progress :=
  match c with
  | .process p c =>
    match s.process p with
    | .ok tok => s.processCall ctx tok c
    | .error e => .done (.error e) s
  | c => let (o, s') := s.plainCall ctx c; .done o s'

end TieredState.Session
