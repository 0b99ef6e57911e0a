import TieredState.World.Basic

/-!
# Scripts

A script is a list of steps that an embedder takes on the state layer. A step is a plain call, a
closure, which runs steps inside what it opens, or the registration of a hook with the steps it will
run. Each may be taken on a worker thread, while the thread that takes it waits.

Processes, instances, hooks, handles and cells go by names that the script gives them.
-/

namespace TieredState

/-- A name that a script gives to something. -/
abbrev Name := String

/-- The name of the instance that a running hook was called for. -/
def selfName : Name := "$"

/-- A variable of an instance with a new value. -/
inductive InstanceField where
  | tainting (b : Bool)
  | exitCode (n : Int)
  | subGeneration (n : Nat)
  | svCount (n : Nat)
  deriving DecidableEq, Repr

/-- A variable of a binding with a new value. -/
inductive ThreadField where
  | stackDepth (n : Nat)
  | lastError (s? : Option String)
  | locale (s? : Option String)
  deriving DecidableEq, Repr

/-- A call on the extensions of an instance. -/
inductive ExtensionCall where
  | insert (v : ExtensionValue)
  | get (t : ExtensionType)
  | merge (v : ExtensionValue)
  | getOrDefault (t : ExtensionType)
  | remove (t : ExtensionType)
  | contains (t : ExtensionType)
  | size
  | clear
  deriving DecidableEq, Repr

/-- A call on what the innermost closure has in hand. -/
inductive FocusCall where
  -- What it is; of reference counts, the one of the op tree `op`.
  | get (op : Nat)
  | setInstance (f : InstanceField)
  | setThread (f : ThreadField)
  | setText (s : String)
  | appendText (s : String)
  -- Step every counter and lengthen every text.
  | bump
  | takeExtensions
  | extension (c : ExtensionCall)
  | insertInstance (i : Name)
  | removeInstance (i : Name)
  | findInstance (i : Name)
  | removeHook (h : Name)
  | increment (op : Nat)
  | decrement (op : Nat)
  | recordAlloc (bytes : Nat)
  | recordFree (bytes : Nat)
  deriving DecidableEq, Repr

/-- A call on a process. What is found or made is kept under the name `as?`. -/
inductive ProcessCall where
  | report
  | phase
  | token
  | key
  | policySize
  | install
  | bindingState
  | doUndump
  | earlyTaint
  | create (as? : Option Name)
  | spawn (parent : Name) (as? : Option Name)
  | destroy (i : Name)
  | shutdown
  | instances
  | count
  | find (i : Name) (as? : Option Name)
  | initial (as? : Option Name)
  | bind (i : Name) (as? : Option Name)
  | release
  | current (as? : Option Name)
  | currentThread (as? : Option Name)
  | removeHook (h : Name)
  | setDoUndump (b : Bool)
  | setEarlyTaint (b : Bool)
  -- Set the flag past every check.
  | forceDoUndump (b : Bool)
  | shPath
  | programName
  | setShPath (s : String)
  | setProgramName (s : String)
  | increment (op : Nat)
  | decrement (op : Nat)
  | recordAlloc (bytes : Nat)
  | recordFree (bytes : Nat)
  | allocStats
  deriving DecidableEq, Repr

/-- How a cell of a script guards its value. -/
inductive CellKind where
  | guarded
  | readMostly
  -- A truth value without a lock.
  | flag
  deriving DecidableEq, Repr

/-- The value in a cell. -/
inductive CellContent where
  | text (s : String)
  | flag (b : Bool)
  deriving DecidableEq, Repr

/-- A call on a cell. -/
inductive CellCall where
  | read
  | write (v : CellContent)
  | lock
  -- Replace the value without the lock, as the owner of the cell.
  | replace (v : CellContent)
  -- Take the value out and give up the cell.
  | unwrap
  deriving DecidableEq, Repr

/-- A call through the C interface. -/
inductive ForeignCall where
  | start
  | doUndump
  | shPath
  | programName
  -- Nothing stands for a null pointer.
  | setProgramName (bytes? : Option (List UInt8))
  | freeNull
  deriving DecidableEq, Repr

/-- A step without steps inside. -/
inductive Call where
  | start (p : Name) (config? : Option String)
  | dropProcess (p : Name)
  | dropInstance (i : Name)
  | endThread (name : String)
  | heldLocks
  -- Unwind to the nearest attempt, worker or whole step.
  | fail
  | isInstalled
  | keepInstalled (p : Name)
  | instanceInfo (i : Name)
  | handleInfo (h : Name)
  | dropHandle (h : Name)
  | process (p : Name) (c : ProcessCall)
  | focus (c : FocusCall)
  | newCell (c : Name) (kind : CellKind) (lock : Lock) (v : CellContent)
  | cell (c : Name) (call : CellCall)
  | foreign (c : ForeignCall)
  deriving DecidableEq, Repr

/-- A global variable that a closure can have in hand, with or without the right to change it. -/
inductive Shared where
  | registry
  | hooks
  | hooksRead
  | shPath
  | shPathRead
  | programName
  | opRefcount
  | allocStats
  deriving DecidableEq, Repr

/-- What a closure opens for the steps inside. -/
inductive Opening where
  -- The variables of an instance.
  | ofInstance (i : Name)
  -- The variables of the thread's current instance.
  | ofCurrent (p : Name)
  -- The variables of the thread's binding.
  | ofThread (p : Name)
  -- The variables behind a handle.
  | ofHandle (h : Name)
  | ofShared (p : Name) (s : Shared)
  | ofCell (c : Name)
  | ofCellRead (c : Name)
  -- Nothing; a failure inside ends here.
  | attempt
  deriving DecidableEq, Repr

/-- A hook to be registered: with a process, or, without one, with the hooks in hand. -/
structure HookRequest where
  process? : Option Name
  event : HookEvent
  as? : Option Name
  -- What the hook's events are told under.
  tag : String
  -- How often the hook runs its steps.
  limit : Nat
  deriving DecidableEq, Repr

/-- One step of a script, on the thread at hand or on a worker. -/
inductive Step where
  | call (on? : Option String) (c : Call)
  | closure (on? : Option String) (o : Opening) (body : List Step)
  | register (on? : Option String) (r : HookRequest) (body : List Step)

namespace Step

instance : Inhabited Step := ⟨.call none .heldLocks⟩

/-- The worker that a step is taken on. -/
def on? : Step → Option String
  | call t _ | closure t _ _ | register t _ _ => t

mutual

/-- A bound on the number of steps that a step can lead to, with those of the hook it registers. -/
def weight : Step → Nat
  | .call _ _ => 1
  | .closure _ _ body => 2 + weights body
  | .register _ r body => 1 + r.limit * (2 + weights body)

/-- The sum of the weights of steps. -/
def weights : List Step → Nat
  | [] => 0
  | s :: ss => s.weight + weights ss

end

end Step

end TieredState
