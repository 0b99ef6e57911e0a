import TieredState.Lock
import TieredState.World.Identity

/-!
# Refused accesses

Why an operation on running state could not be served. It is told to the caller and never retried.
-/

namespace TieredState

inductive AccessError where
  -- The thread is bound to no instance.
  | noActiveInstance
  -- A lock was asked for while one of the same or a higher rank is held.
  | lockOrder (held requested : Lock)
  -- Per-thread variables are in use further up on the same thread.
  | reentrant
  -- The instance is torn down.
  | instanceDestroyed (id : InstanceId)
  -- The instance belongs to another process.
  | foreignInstance (id : InstanceId)
  -- The process is shut down.
  | shutDown
  -- A field that only the startup may write was written later.
  | startupSealed (field : String)
  -- There are as many instances as the configuration allows.
  | instanceLimit (limit : Nat)
  deriving DecidableEq, Repr

namespace AccessError

def message : AccessError → String
  | noActiveInstance => "No instance is bound to the current thread"
  | lockOrder held requested =>
    "Lock order violation: requested '" ++ requested.name ++ "' (rank " ++ toString requested.rank ++
      ") while holding '" ++ held.name ++ "' (rank " ++ toString held.rank ++ ")"
  | reentrant => "Per-thread state is already borrowed on this thread"
  | instanceDestroyed id => id.label ++ " has been destroyed"
  | foreignInstance id => id.label ++ " belongs to a different process state"
  | shutDown => "Process state has been shut down"
  | startupSealed field =>
    "Field '" ++ field ++ "' can only be written before the first instance is created"
  | instanceLimit limit => "Instance limit of " ++ toString limit ++ " reached"

end AccessError

end TieredState
