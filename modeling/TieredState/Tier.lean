/-!
# Tiers

Every piece of mutable runtime state lives in exactly one tier, which fixes how many copies of it
exist and who may reach it. A field either names its tier or says where it is needed, and
`Tier.classify` derives the tier from that placement.
-/

namespace TieredState

/-- Lifetime and sharing scope of a state field. -/
inductive Tier where
  -- One copy per process, shared by every instance.
  | global
  -- One copy per interpreter instance, created and destroyed with it.
  | perInstance
  -- One copy per binding of a thread to an instance.
  | perThread
  deriving DecidableEq, Repr, Inhabited

/-- The two placement axes from which a tier is derived. -/
structure Placement where
  -- The field is needed before any instance exists.
  beforeInstance : Bool := false
  -- Each thread needs a copy of its own.
  perThread : Bool := false
  deriving DecidableEq, Repr

namespace Tier

/-- The tiers in the order in which tables and generated code list them. -/
def all : List Tier := [global, perInstance, perThread]

/-- The tier of a field with placement `p`. A field needed before any instance exists can only be
global; without instance support all that is not per thread is global too. -/
def classify (p : Placement) (instancesSupported : Bool) : Tier :=
  if p.beforeInstance then global
  else if p.perThread then perThread
  else if instancesSupported then perInstance
  else global

/-- Whether threads share fields of the tier without one of them owning it. -/
def isShared : Tier → Bool
  | global => true
  | perInstance | perThread => false

/-- The tier's name in manifests and tables. -/
def name : Tier → String
  | global => "global"
  | perInstance => "per_instance"
  | perThread => "per_thread"

/-- The tier's name in generated declarations. -/
def title : Tier → String
  | global => "Global"
  | perInstance => "PerInstance"
  | perThread => "PerThread"

/-- The tier that a name stands for. -/
def ofName? (s : String) : Option Tier := all.find? (·.name = s)

end Tier

end TieredState
