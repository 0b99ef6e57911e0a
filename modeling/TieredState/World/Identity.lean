/-!
# Identities

The names by which instances, processes, hooks, threads and storages are told apart. Numbers are
drawn from counters and never used twice.
-/

namespace TieredState

/-- Identity of an instance. -/
structure InstanceId where
  number : Nat
  deriving DecidableEq, Repr

namespace InstanceId

/-- The identity as messages give it. -/
def label (id : InstanceId) : String := "Instance #" ++ toString id.number

/-- The identity as it stands inside other values. -/
def display (id : InstanceId) : String := "InstanceId(" ++ toString id.number ++ ")"

end InstanceId

/-- Identity of a process, under which every thread keeps its binding for that process. -/
structure Token where
  number : Nat
  deriving DecidableEq, Repr

/-- Identity of a registered lifecycle hook within its process. -/
structure HookId where
  number : Nat
  deriving DecidableEq, Repr

namespace HookId

def display (id : HookId) : String := "HookId(" ++ toString id.number ++ ")"

end HookId

/-- Identity of the code that a hook runs. -/
structure CallbackId where
  number : Nat
  deriving DecidableEq, Repr

/-- Identity of the storage of one binding, within its thread. -/
structure StorageId where
  number : Nat
  deriving DecidableEq, Repr

/-- A thread: the one that everything starts on, or a worker under its name. -/
inductive ThreadId where
  | main
  | worker (name : String)
  deriving DecidableEq, Repr

end TieredState
