import TieredState.Field
import TieredState.Policy.Error
import TieredState.Table

/-!
# The synchronisation policy

A `Policy` holds the declared locks, lowest rank first, and the declared fields in order, with an
index of their names, and records which fields each lock guards. Every rule is checked while it is
built:

* lock names and ranks are unique, so the order of acquisition is total;
* field names are unique across the tiers;
* only global fields take locks or are exported, only per-thread fields are persistent, and
  constants are unlocked globals;
* a field has at most one lock, and the fields of one lock are all guarded the same way.

A refused declaration leaves the policy as it was.
-/

namespace TieredState

/-- The validated declarations of one runtime. -/
structure Policy where
  -- Declared locks, lowest rank first.
  locks : List Lock := []
  -- Fields in the order of their declaration.
  fields : List Field := []
  -- The position of each field in the order of declaration, under its name.
  index : Table String Nat := ∅
  -- The names of the fields that each lock guards, in the order in which they were joined, under
  -- the lock's name.
  guarded : Table String (List String) := ∅
  deriving Inhabited

namespace Policy

def field? (p : Policy) (name : String) : Option Field :=
  (p.index.get? name).bind fun k => p.fields[k]?

def protection? (p : Policy) (name : String) : Option Protection :=
  (p.field? name).map (·.protection)

/-- The names of the fields that a lock guards. -/
def guardedFields (p : Policy) (lock : String) : List String := (p.guarded.get? lock).getD []

def tierFields (p : Policy) (t : Tier) : List Field := p.fields.filter (·.tier = t)

/-- The fields that extension code may reach. -/
def exports (p : Policy) : List Field := p.fields.filter (·.exported)

def size (p : Policy) : Nat := p.fields.length

/-- A list of locks with `l` put before the first one that does not rank below it. -/
def insertByRank (l : Lock) : List Lock → List Lock
  | [] => [l]
  | m :: ms => if m.rank < l.rank then m :: insertByRank l ms else l :: m :: ms

/-- Add a lock whose name and rank are both unused. -/
def declareLock (p : Policy) (l : Lock) : Except DeclarationError Policy :=
  if p.locks.any fun m => m.name = l.name || m.rank = l.rank then
    .error (.duplicateLock l.name l.rank)
  else
    .ok { p with locks := insertByRank l p.locks }

/-- Whether a field called `field` of tier `tier` may be guarded by `lock` in the way `kind`. -/
def checkGuard (p : Policy) (field : String) (tier : Tier) (lock : Lock)
    (kind : Protection.Kind) : Except DeclarationError Unit :=
  if !tier.isShared then .error (.lockOnUnsharedTier field tier)
  else if lock ∉ p.locks then .error (.unknownLock field lock.display)
  else
    match (p.guardedFields lock.name).find? fun n => (p.protection? n).map (·.kind) ≠ some kind with
    | some existing => .error (.lockKindConflict lock.name field existing)
    | none => .ok ()

/-- The rules on a field's flags. -/
def checkFlags (f : Field) : Except DeclarationError Unit :=
  if f.constant && (f.tier ≠ .global || f.lock?.isSome) then .error (.invalidConstant f.name)
  else if f.exported && !f.tier.isShared then .error (.exportOnUnsharedTier f.name f.tier)
  else if f.persistent && f.tier ≠ .perThread then
    .error (.persistentOutsideThreadTier f.name f.tier)
  else .ok ()

/-- The policy in which the lock guards one more field. -/
def join (p : Policy) (lock : Lock) (field : String) : Policy :=
  { p with guarded := p.guarded.insert lock.name (p.guardedFields lock.name ++ [field]) }

/-- The policy with one more field. -/
def push (p : Policy) (f : Field) : Policy :=
  { p with index := p.index.insert f.name p.fields.length, fields := p.fields ++ [f] }

/-- Add a field. -/
def declare (p : Policy) (f : Field) : Except DeclarationError Policy :=
  if p.index.contains f.name then .error (.duplicateField f.name)
  else do
    checkFlags f
    match f.lock? with
    | none => return p.push f
    | some l =>
      p.checkGuard f.name f.tier l f.protection.kind
      return (p.join l f.name).push f

/-- Guard a field that is declared and has no lock yet. -/
def bind (p : Policy) (name : String) (protection : Protection) :
    Except DeclarationError Policy :=
  match (p.index.get? name).bind fun k => p.fields[k]?.map (k, ·) with
  | none => .error (.unknownField name)
  | some (k, f) =>
    match protection.lock? with
    | none => .ok p
    | some l =>
      match f.lock? with
      | some existing => .error (.fieldAlreadyLocked name existing.name l.name)
      | none =>
        if f.constant then .error (.invalidConstant name)
        else do
          p.checkGuard name f.tier l protection.kind
          return { p.join l name with fields := p.fields.set k { f with protection } }

/-- A policy with locks and no fields. -/
def ofLocks (locks : List Lock) : Except DeclarationError Policy :=
  locks.foldlM declareLock {}

/-- A policy from locks and then fields. -/
def ofDeclarations (locks : List Lock) (fields : List Field) : Except DeclarationError Policy := do
  fields.foldlM declare (← ofLocks locks)

end Policy

end TieredState
