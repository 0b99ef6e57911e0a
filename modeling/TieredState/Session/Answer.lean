import TieredState.World.Binding

/-!
# Answers

What a step of a script gives: an answer, or the reason why there is none.
-/

namespace TieredState

/-- What a process tells of itself and of the thread that asks. -/
structure ProcessReport where
  phase : Phase
  binding : BindingState
  instances : Except AccessError (List InstanceId)
  initial : Except AccessError (Option InstanceId)
  shPath : Except AccessError String
  programName : Except AccessError String
  doUndump : Bool
  earlyTaint : Bool
  current : Except AccessError InstanceId
  display : String

/-- What an instance tells of itself. -/
structure InstanceInfo where
  id : InstanceId
  parent? : Option InstanceId
  alive : Bool
  deriving DecidableEq, Repr

namespace InstanceInfo

def display (i : InstanceInfo) : String :=
  let parent := match i.parent? with
    | some p => "Some(" ++ p.display ++ ")"
    | none => "None"
  "Instance \x7b id: " ++ i.id.display ++ ", parent: " ++ parent ++ ", alive: " ++
    (if i.alive then "true" else "false") ++ " \x7d"

end InstanceInfo

/-- What a handle tells of itself. -/
structure HandleInfo where
  target : InstanceId
  bound : Bool
  live : Except AccessError InstanceId

namespace HandleInfo

def display (h : HandleInfo) : String :=
  "ThreadStateHandle \x7b instance: " ++ h.target.display ++ ", bound: " ++
    (if h.bound then "true" else "false") ++ " \x7d"

end HandleInfo

/-- Why a step has no answer. -/
inductive Fault where
  | access (e : AccessError)
  | config (e : ConfigError)
  -- Nothing goes by the name.
  | noSuchName (name : String)
  -- The step was unwound.
  | failed
  -- The step makes no sense where it stands.
  | misplaced

/-- The answer of a step. -/
inductive Answer where
  | nothing
  | flag (b : Bool)
  | number (n : Int)
  | text (s : String)
  | optionalText (s? : Option String)
  | identity (id? : Option InstanceId)
  | identities (ids : List InstanceId)
  | lock (l : Lock)
  | locks (ls : List Lock)
  | bindingState (b : BindingState)
  | report (r : ProcessReport)
  | instanceInfo (i : InstanceInfo)
  | handleInfo (h : HandleInfo)
  | instanceVars (v : InstanceVars)
  | threadVars (v : ThreadVars)
  | extension (v? : Option ExtensionValue)
  -- The number of values in a collection.
  | size (n : Nat)
  | registry (r : Registry)
  -- Whether something is registered, and its identity if it is.
  | found (id? : Option InstanceId)
  | hooks (h : Hooks)
  -- The references of one op tree, and the number of those with any.
  | references (count size : Nat)
  | allocStats (s : AllocStats)
  | results (rs : List (Except Fault Answer))

/-- The outcome of a step. -/
abbrev Outcome := Except Fault Answer

/-- That a hook was called. -/
structure Event where
  tag : String
  target : InstanceId
  -- The instance was alive when the hook's steps had run.
  alive : Bool
  -- The outcomes of the hook's steps, if it ran them.
  results? : Option (List Outcome)

/-- The outcome of a whole step with the calls of hooks that it led to. -/
structure Report where
  outcome : Outcome
  events : List Event

end TieredState
