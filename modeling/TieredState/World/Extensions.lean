import TieredState.Table

/-!
# Extensions of an instance

Values that other subsystems keep with an instance: at most one of each type.
-/

namespace TieredState

/-- The types of extension values. -/
inductive ExtensionType where
  | word32
  | word64
  | text
  | heap
  deriving DecidableEq, Repr

/-- A value that a subsystem keeps with an instance. -/
inductive ExtensionValue where
  | word32 (n : UInt32)
  | word64 (n : UInt64)
  | text (s : String)
  -- The figures of a memory manager.
  | heap (arenas : UInt64)
  deriving DecidableEq, Repr

namespace ExtensionValue

def type : ExtensionValue → ExtensionType
  | word32 _ => .word32
  | word64 _ => .word64
  | text _ => .text
  | heap _ => .heap

/-- The value of a type that stands for nothing. -/
def default : ExtensionType → ExtensionValue
  | .word32 => word32 0
  | .word64 => word64 0
  | .text => text ""
  | .heap => heap 0

/-- One value added to another of its type: words wrap around, texts are joined. -/
def add : ExtensionValue → ExtensionValue → ExtensionValue
  | word32 a, word32 b => word32 (a + b)
  | word64 a, word64 b => word64 (a + b)
  | text a, text b => text (a ++ b)
  | heap a, heap b => heap (a + b)
  | a, _ => a

end ExtensionValue

/-- The extension values of one instance under their types. -/
structure Extensions where
  values : Table ExtensionType ExtensionValue := ∅
  deriving Inhabited

namespace Extensions

def get? (e : Extensions) (t : ExtensionType) : Option ExtensionValue := e.values.get? t

def contains (e : Extensions) (t : ExtensionType) : Bool := e.values.contains t

def size (e : Extensions) : Nat := e.values.size

/-- Store a value in the place of the one of its type, which is given back. -/
def insert (e : Extensions) (v : ExtensionValue) : Option ExtensionValue × Extensions :=
  (e.get? v.type, ⟨e.values.insert v.type v⟩)

/-- The value of a type, with the default of the type put in first where there is none. -/
def getOrDefault (e : Extensions) (t : ExtensionType) : ExtensionValue × Extensions :=
  match e.get? t with
  | some v => (v, e)
  | none => (.default t, ⟨e.values.insert t (.default t)⟩)

def remove (e : Extensions) (t : ExtensionType) : Option ExtensionValue × Extensions :=
  (e.get? t, ⟨e.values.erase t⟩)

/-- Add to the value of a type, if there is one, and give the sum. -/
def merge (e : Extensions) (v : ExtensionValue) : Option ExtensionValue × Extensions :=
  match e.get? v.type with
  | some old => (some (old.add v), ⟨e.values.insert v.type (old.add v)⟩)
  | none => (none, e)

def display (e : Extensions) : String := "Extensions \x7b len: " ++ toString e.size ++ " \x7d"

end Extensions

end TieredState
