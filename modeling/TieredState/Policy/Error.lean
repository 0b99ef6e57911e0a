import TieredState.Tier

/-!
# Malformed declarations

Every way in which a set of declarations can break the rules, with its wording.
-/

namespace TieredState

/-- Why a set of declarations is refused. -/
inductive DeclarationError where
  -- Two declarations share a field name.
  | duplicateField (field : String)
  -- A declaration has neither a tier nor a placement.
  | missingTier (field : String)
  -- The declared tier is not the one that the placement gives.
  | tierConflict (field : String) (declared classified : Tier)
  -- A lock was bound to a field that has one.
  | fieldAlreadyLocked (field existing requested : String)
  -- The fields of one lock differ in how it guards them.
  | lockKindConflict (lock field existingField : String)
  -- Two locks share a name or a rank.
  | duplicateLock (name : String) (rank : Nat)
  -- A field names a lock that is not declared.
  | unknownLock (field lock : String)
  -- Only global fields take a lock.
  | lockOnUnsharedTier (field : String) (tier : Tier)
  -- Only global fields are exported.
  | exportOnUnsharedTier (field : String) (tier : Tier)
  -- Only per-thread fields are persistent.
  | persistentOutsideThreadTier (field : String) (tier : Tier)
  -- A constant is global and takes no lock.
  | invalidConstant (name : String)
  -- A constant's name is taken.
  | duplicateConstant (name : String)
  -- A constant's storage is registered under another name.
  | aliasedConstant (name existing : String)
  -- A lock was bound to a field that is not declared.
  | unknownField (field : String)
  -- A name cannot be declared by generated code.
  | invalidIdentifier (name : String)
  -- Two locks give one generated constant.
  | lockNameCollision (lock existing generated : String)
  deriving DecidableEq, Repr

namespace DeclarationError

def message : DeclarationError → String
  | duplicateField f => s!"Field '{f}' is declared more than once"
  | missingTier f => s!"Field '{f}' has no tier and no placement"
  | tierConflict f d c =>
    s!"Field '{f}' is declared {d.name} but its placement classifies it as {c.name}"
  | fieldAlreadyLocked f e r =>
    s!"Field '{f}' is already protected by lock '{e}', cannot bind '{r}'"
  | lockKindConflict l f e =>
    s!"Field '{f}' uses lock '{l}' with a different protection than '{e}'"
  | duplicateLock n r => s!"Lock '{n}' (rank {r}) clashes with another lock"
  | unknownLock f l => s!"Field '{f}' refers to undeclared lock '{l}'"
  | lockOnUnsharedTier f t => s!"Field '{f}' is {t.name} and cannot take a lock"
  | exportOnUnsharedTier f t => s!"Field '{f}' is {t.name} and cannot be exported"
  | persistentOutsideThreadTier f t => s!"Field '{f}' is {t.name} and cannot be persistent"
  | invalidConstant n => s!"Constant '{n}' must be an unlocked global"
  | duplicateConstant n => s!"Constant '{n}' is already defined"
  | aliasedConstant n e =>
    s!"Constant '{n}' shares its address with '{e}'; give it its own storage"
  | unknownField f => s!"Field '{f}' is not declared"
  | invalidIdentifier n => s!"'{n}' is not a valid Rust identifier"
  | lockNameCollision l e g => s!"Locks '{e}' and '{l}' both generate the constant '{g}'"

end DeclarationError

end TieredState
