import TieredState.World.Identity

/-!
# The registry of a process

The identities of the registered instances in ascending order, and the initial one: the first that
was ever registered, as long as it is not removed. No other takes its place.
-/

namespace TieredState

structure Registry where
  -- The registered instances, in ascending order.
  members : List InstanceId := []
  initial? : Option InstanceId := none
  -- Set once there was an initial instance, also when it is gone.
  initialChosen : Bool := false
  deriving DecidableEq, Repr, Inhabited

namespace Registry

def contains (r : Registry) (id : InstanceId) : Bool := r.members.contains id

def size (r : Registry) : Nat := r.members.length

/-- An identity put at its place in an ascending list, where it stands once. -/
def insertAscending (id : InstanceId) : List InstanceId → List InstanceId
  | [] => [id]
  | m :: ms =>
    if m.number < id.number then m :: insertAscending id ms
    else if m = id then m :: ms
    else id :: m :: ms

def insert (r : Registry) (id : InstanceId) : Registry where
  members := insertAscending id r.members
  initial? := if r.initialChosen then r.initial? else some id
  initialChosen := true

def remove (r : Registry) (id : InstanceId) : Registry :=
  { r with
    members := r.members.filter (· ≠ id)
    initial? := if r.initial? = some id then none else r.initial? }

/-- The initial instance, if it is registered. -/
def initialMember? (r : Registry) : Option InstanceId := r.initial?.filter r.contains

/-- Remove every instance and give them newest first. -/
def drain (r : Registry) : List InstanceId × Registry :=
  (r.members.reverse, { r with members := [], initial? := none })

end Registry

end TieredState
