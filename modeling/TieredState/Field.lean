import TieredState.Tier
import TieredState.Lock

/-!
# Declared fields

A `Field` is the record of one declared piece of state: its name, tier, type, initial value,
protection and flags. Policies are built from such records and generated code is written from them.
-/

namespace TieredState

/-- How a lock guards a field. -/
inductive Protection.Kind where
  | unlocked
  | mutex
  | readMostly
  deriving DecidableEq, Repr

/-- The synchronisation that a field needs. -/
inductive Protection where
  -- None, or by ownership.
  | unlocked
  -- Reads and writes take the lock alike.
  | mutex (lock : Lock)
  -- Readers share the lock, a writer has it alone.
  | readMostly (lock : Lock)
  deriving DecidableEq, Repr, Inhabited

namespace Protection

def lock? : Protection → Option Lock
  | unlocked => none
  | mutex l | readMostly l => some l

def kind : Protection → Kind
  | unlocked => .unlocked
  | mutex _ => .mutex
  | readMostly _ => .readMostly

/-- The kind's name in tables. -/
def Kind.name : Kind → String
  | .unlocked => "none"
  | .mutex => "mutex"
  | .readMostly => "read_mostly"

end Protection

/-- One declared state field. -/
structure Field where
  name : String
  tier : Tier
  -- The text of the field's type.
  type : String
  -- The text of the initial value.
  initial? : Option String := none
  -- The build condition under which the field exists.
  condition? : Option String := none
  protection : Protection := .unlocked
  -- Extension code may reach the field.
  exported : Bool := false
  -- The value outlives the release of a binding and waits for the same thread and instance.
  persistent : Bool := false
  constant : Bool := false
  deriving DecidableEq, Repr, Inhabited

namespace Field

def lock? (f : Field) : Option Lock := f.protection.lock?

end Field

end TieredState
