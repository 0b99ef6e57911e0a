import TieredState.Builtin
import TieredState.World.Process
import TieredState.Session.Answer
import TieredState.Session.Script

/-!
# The state of a session

A session is a world together with what the script at hand has given names to, the code of its
hooks, and its cells. `Focus` is what the innermost closure has in hand.
-/

namespace TieredState

/-- Identity of a cell that a script made. -/
structure CellId where
  number : Nat
  deriving DecidableEq, Repr

/-- A value with a lock of its own. -/
structure LockedCell where
  kind : CellKind
  lock : Lock
  content : CellContent
  deriving DecidableEq, Repr

/-- The code of a hook. -/
structure Callback where
  tag : String
  -- How often the steps are run.
  limit : Nat
  body : List Step
  -- How often the hook was called.
  calls : Nat := 0

namespace Callback

/-- Whether the next call runs the steps. -/
def runs (c : Callback) : Bool := !c.body.isEmpty && c.calls < c.limit

def called (c : Callback) : Callback := { c with calls := c.calls + 1 }

end Callback

/-- A text that a closure can have in hand. -/
inductive TextPlace where
  | shPath (tok : Token)
  | programName (tok : Token)
  | cell (c : CellId)
  deriving DecidableEq, Repr

/-- What the innermost closure has in hand. -/
inductive Focus where
  | nothing
  | instanceVars (id : InstanceId)
  | threadVars (t : ThreadId) (s : StorageId)
  | text (place : TextPlace) (writable : Bool)
  | registry (tok : Token)
  | hooks (tok : Token) (writable : Bool)
  | references (tok : Token)
  | allocStats (tok : Token)
  deriving DecidableEq, Repr

/-- Where a step is taken: the thread, what is in hand, and the instance that the running hook was
called for. -/
structure Context where
  thread : ThreadId
  focus : Focus := .nothing
  self? : Option InstanceId := none
  deriving DecidableEq, Repr

structure Session where
  world : World := {}
  files : FileTree := default
  environment : Variables := {}
  -- The number of declared fields that a process reports.
  fieldCount : Nat := (Builtin.fields true).length
  processes : Table Name Token := ∅
  instances : Table Name InstanceId := ∅
  hooks : Table Name HookId := ∅
  handles : Table (ThreadId × Name) Handle := ∅
  cellNames : Table Name CellId := ∅
  cells : Table CellId LockedCell := ∅
  callbacks : Table CallbackId Callback := ∅
  nextCallback : Nat := 0
  nextCell : Nat := 0
  -- The calls of hooks since the last report.
  events : List Event := []

namespace Session

/-! ## Names -/

def process (s : Session) (p : Name) : Except Fault Token :=
  match s.processes.get? p with
  | some tok => .ok tok
  | none => .error (.noSuchName p)

/-- The instance that goes by a name. -/
def instanceNamed (s : Session) (ctx : Context) (i : Name) : Except Fault InstanceId :=
  match (if i = selfName then ctx.self? else none) with
  | some id => .ok id
  | none =>
    match s.instances.get? i with
    | some id => .ok id
    | none => .error (.noSuchName i)

/-- The instance that goes by a name, to be kept. A hook has no right to keep its own instance, and
has to find it in the registry of a process. -/
def instanceToKeep (s : Session) (ctx : Context) (tok? : Option Token) (i : Name) :
    Except Fault InstanceId :=
  match (if i = selfName then ctx.self? else none) with
  | some id =>
    match tok?.map fun tok => s.world.findInstance ctx.thread tok id with
    | some (.ok (some id)) => .ok id
    | _ => .error (.noSuchName i)
  | none =>
    match s.instances.get? i with
    | some id => .ok id
    | none => .error (.noSuchName i)

def hookNamed (s : Session) (h : Name) : Except Fault HookId :=
  match s.hooks.get? h with
  | some id => .ok id
  | none => .error (.noSuchName h)

def handleNamed (s : Session) (t : ThreadId) (h : Name) : Except Fault Handle :=
  match s.handles.get? (t, h) with
  | some handle => .ok handle
  | none => .error (.noSuchName h)

/-- The cell that goes by a name. -/
def cellNamed (s : Session) (c : Name) : Except Fault (CellId × LockedCell) :=
  match s.cellNames.get? c with
  | none => .error (.noSuchName c)
  | some id =>
    match s.cells.get? id with
    | some cell => .ok (id, cell)
    | none => .error (.noSuchName c)

def keepInstance (s : Session) (as? : Option Name) (id : InstanceId) : Session :=
  match as? with
  | some i => { s with instances := s.instances.insert i id }
  | none => s

/-- Keep the instance that was found, if one was. -/
def keepFound (s : Session) (as? : Option Name) (id? : Option InstanceId) : Session :=
  match id? with
  | some id => s.keepInstance as? id
  | none => s

def keepHandle (s : Session) (t : ThreadId) (as? : Option Name) (h : Handle) : Session :=
  match as? with
  | some n => { s with handles := s.handles.insert (t, n) h }
  | none => s

def keepHook (s : Session) (as? : Option Name) (id : HookId) : Session :=
  match as? with
  | some n => { s with hooks := s.hooks.insert n id }
  | none => s

/-! ## Parts of the state -/

/-- The session with the world changed. -/
def withWorld (s : Session) (w : World) : Session := { s with world := w }

/-- The session in which the thread exists. -/
def touch (s : Session) (t : ThreadId) : Session :=
  s.withWorld (s.world.setThread t (s.world.thread t))

def modifyProcess (s : Session) (tok : Token) (f : Process → Process) : Session :=
  s.withWorld (s.world.modifyProcess tok f)

def modifyCell (s : Session) (c : CellId) (f : LockedCell → LockedCell) : Session :=
  { s with cells := s.cells.modify c f }

/-- Add the code of a hook. -/
def addCallback (s : Session) (c : Callback) : CallbackId × Session :=
  let id : CallbackId := ⟨s.nextCallback⟩
  (id, { s with
    callbacks := s.callbacks.insert id c
    nextCallback := s.nextCallback + 1 })

/-- Tell that a hook was called. -/
def tell (s : Session) (tag : String) (target : InstanceId) (results? : Option (List Outcome)) :
    Session :=
  { s with events := s.events ++ [⟨tag, target, s.world.isLive target, results?⟩] }

/-- The text at a place. -/
def textAt (s : Session) : TextPlace → String
  | .shPath tok => ((s.world.processes.get? tok).map (·.shPath)).getD ""
  | .programName tok => ((s.world.processes.get? tok).map (·.programName)).getD ""
  | .cell c =>
    match s.cells.get? c with
    | some ⟨_, _, .text t⟩ => t
    | _ => ""

def setTextAt (s : Session) (text : String) : TextPlace → Session
  | .shPath tok => s.modifyProcess tok fun p => { p with shPath := text }
  | .programName tok => s.modifyProcess tok fun p => { p with programName := text }
  | .cell c => s.modifyCell c fun cell => { cell with content := .text text }

/-! ## Ends of life -/

/-- Drop the process `tok` when nothing refers to it, on the thread `t`. -/
def dropProcess (w : World) (t : ThreadId) (tok : Token) : World :=
  let w := w.releaseKey t tok
  { w with processes := w.processes.erase tok }

/-- Drop every process and every instance that nothing refers to: no name, no running operation (of
those `tokens` and `ids` are held), for a process the program as a whole, and for an instance the
registry of a process. -/
def sweep (s : Session) (t : ThreadId) (tokens : List Token) (ids : List InstanceId) : Session :=
  let namedTokens := s.processes.values ++ s.world.installed?.toList ++ tokens
  let lost := s.world.processes.keys.filter fun tok => tok ∉ namedTokens
  let w := lost.foldl (fun w tok => dropProcess w t tok) s.world
  let namedIds := s.instances.values ++ ids
  s.withWorld { w with
    instances := w.instances.filter fun id _ =>
      namedIds.contains id || w.processes.values.any (·.registry.contains id) }

end Session

end TieredState
