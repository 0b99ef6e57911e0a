import TieredState.Session.State

/-!
# Operations that run hooks

An operation that runs hooks is carried as a `Dispatch`: the instance that hooks are being called
for, the hooks still to be called, and what the operation has to do when they have run. The list of
hooks is drawn up when the dispatch begins, and is not changed by what the hooks do.
-/

namespace TieredState

/-- The operation behind a dispatch. -/
inductive Task where
  -- An instance was registered and is to be kept under a name.
  | create (as? : Option Name)
  | destroy
  -- A process is shut down: the instances still to be torn down, and the number of all.
  | shutdown (rest : List InstanceId) (count : Nat)
  deriving DecidableEq, Repr

structure Dispatch where
  thread : ThreadId
  process : Token
  target : InstanceId
  -- The hooks that are still to be called.
  pending : List CallbackId
  task : Task
  -- The first failure to list the hooks.
  failure? : Option AccessError := none
  deriving DecidableEq, Repr

/-- How far a call has come: it is done, or hooks are to run before it goes on. -/
inductive Progress where
  | done (o : Outcome) (s : Session)
  | running (d : Dispatch) (s : Session)

namespace Session

/-- Begin to create an instance: register it and list the hooks. -/
def beginCreate (s : Session) (t : ThreadId) (tok : Token) (as? : Option Name)
    (enrolled : Except AccessError InstanceId × World) : Progress :=
  let s := s.withWorld enrolled.2
  match enrolled.1 with
  | .error e => .done (.error (.access e)) s
  | .ok id =>
    match s.world.hooksFor t tok .created with
    | .error e => .done (.error (.access e)) s
    | .ok pending =>
      .running { thread := t, process := tok, target := id, pending, task := .create as? } s

/-- Begin to tear an instance down: list the hooks. That they cannot be listed does not stop it. -/
def beginTearDown (s : Session) (t : ThreadId) (tok : Token) (id : InstanceId) (task : Task)
    (failure? : Option AccessError) : Dispatch :=
  match s.world.hooksFor t tok .destroyed with
  | .ok pending => { thread := t, process := tok, target := id, pending, task, failure? }
  | .error e =>
    { thread := t, process := tok, target := id, pending := [], task, failure? := failure? <|> some e }

/-- Begin to destroy an instance. -/
def beginDestroy (s : Session) (t : ThreadId) (tok : Token) (id : InstanceId) : Progress :=
  match s.world.withdraw t tok id with
  | .error e => .done (.error (.access e)) s
  | .ok w =>
    let s := s.withWorld w
    .running (s.beginTearDown t tok id .destroy none) s

/-- The outcome of an operation that failed to list hooks, or did not. -/
def outcomeOf (failure? : Option AccessError) (a : Answer) : Outcome :=
  match failure? with
  | some e => .error (.access e)
  | none => .ok a

/-- Go on with a shutdown when some of its instances are torn down. -/
def continueShutdown (s : Session) (t : ThreadId) (tok : Token) (rest : List InstanceId)
    (count : Nat) (failure? : Option AccessError) : Progress :=
  match rest with
  | id :: rest => .running (s.beginTearDown t tok id (.shutdown rest count) failure?) s
  | [] => .done (outcomeOf failure? (.number count)) (s.withWorld (s.world.releaseKey t tok))

/-- Begin to shut a process down. -/
def beginShutdown (s : Session) (t : ThreadId) (tok : Token) : Progress :=
  match s.world.beginShutdown t tok with
  | .error e => .done (.error (.access e)) s
  | .ok (drained, w) => (s.withWorld w).continueShutdown t tok drained drained.length none

/-- Go on with an operation when the hooks for its instance have run. -/
def finish (s : Session) (d : Dispatch) : Progress :=
  match d.task with
  | .create as? => .done (.ok (.identity (some d.target))) (s.keepInstance as? d.target)
  | .destroy =>
    .done (outcomeOf d.failure? .nothing) (s.withWorld (s.world.tearDown d.thread d.process d.target))
  | .shutdown rest count =>
    (s.withWorld (s.world.tearDown d.thread d.process d.target)).continueShutdown d.thread d.process
      rest count d.failure?

end Session

end TieredState
