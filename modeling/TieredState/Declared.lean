import TieredState.Field

/-!
# Declared structures

A structure of state fields is declared as a list of clauses, one a field. A clause gives the
field's name, type, initial value and lock, and flags that mark it as exported, persistent or
constant; a clause whose build condition does not hold declares nothing.

From the clauses come the structure's initial storage (`StateStruct.new`), the replacement of a
field (`Storage.set`), the exchange of the persistent fields between two storages
(`StateStruct.carryPersistent`) and the records that describe it (`StateStruct.declarations`).
-/

namespace TieredState

/-- A mark on a declared field. -/
inductive Flag where
  | exported
  | persistent
  | constant
  deriving DecidableEq, Repr

/-- The record with a mark set. -/
def Field.mark (f : Field) : Flag → Field
  | .exported => { f with exported := true }
  | .persistent => { f with persistent := true }
  | .constant => { f with constant := true }

/-- The declaration of one field with contents of type `α`. -/
structure Clause (α : Type) where
  name : String
  -- The text of the field's type.
  type : String
  -- The text of the initial value.
  initialText : String
  -- The value that the text stands for.
  initial : α
  -- The build condition, if there is one, and whether it holds.
  condition? : Option (String × Bool) := none
  flags : List Flag := []
  protection : Protection := .unlocked
  deriving Repr

namespace Clause

variable {α : Type}

/-- Whether the field exists in this build. -/
def isPresent (c : Clause α) : Bool := (c.condition?.map (·.2)).getD true

/-- Whether one of the flags marks the field as persistent. -/
def isPersistent (c : Clause α) : Bool := c.flags.contains .persistent

/-- The record of the field in a structure of tier `tier`: what the clause says, with one mark set
after the other. -/
def field (tier : Tier) (c : Clause α) : Field :=
  c.flags.foldl Field.mark {
    name := c.name
    tier := tier
    type := c.type
    initial? := some c.initialText
    condition? := c.condition?.map (·.1)
    protection := c.protection }

end Clause

/-- A field's content together with the lock around it. -/
structure Cell (α : Type) where
  protection : Protection
  content : α
  deriving DecidableEq, Repr

/-- The fields of one structure under their names. -/
abbrev Storage (α : Type) := List (String × Cell α)

namespace Storage

variable {α : Type}

def cell? (s : Storage α) (name : String) : Option (Cell α) := s.lookup name

def get? (s : Storage α) (name : String) : Option α := (s.cell? name).map (·.content)

/-- Put a cell in the place of the one called `name`. -/
def replace (s : Storage α) (name : String) (c : Cell α) : Storage α :=
  s.map fun e => if e.1 = name then (name, c) else e

/-- Replace a field's content under the lock it has, and give the previous one. -/
def set (s : Storage α) (name : String) (content : α) : Option (α × Storage α) :=
  (s.cell? name).map fun c => (c.content, s.replace name { c with content })

/-- Exchange one field between two storages, where both have it. -/
def swap (a b : Storage α) (name : String) : Storage α × Storage α :=
  match a.cell? name, b.cell? name with
  | some x, some y => (a.replace name y, b.replace name x)
  | _, _ => (a, b)

end Storage

/-- A structure of state fields. -/
structure StateStruct (α : Type) where
  tier : Tier
  clauses : List (Clause α)
  -- No two fields that exist in one build share a name.
  distinct : ((clauses.filter (·.isPresent)).map (·.name)).Nodup := by decide
  deriving Repr

namespace StateStruct

variable {α : Type}

/-- The clauses of the fields that exist in this build. -/
def present (d : StateStruct α) : List (Clause α) := d.clauses.filter (·.isPresent)

/-- Every field with its initial value. -/
def new (d : StateStruct α) : Storage α := d.present.map fun c => (c.name, ⟨c.protection, c.initial⟩)

/-- The records of the fields, in the order of the clauses. -/
def declarations (d : StateStruct α) : List Field := d.present.map (·.field d.tier)

/-- Exchange the persistent fields of two storages. -/
def carryPersistent (d : StateStruct α) (a b : Storage α) : Storage α × Storage α :=
  (d.present.filter (·.isPersistent)).foldl (fun (x, y) c => x.swap y c.name) (a, b)

end StateStruct

end TieredState
