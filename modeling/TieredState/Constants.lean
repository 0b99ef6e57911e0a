import TieredState.Policy.InPlace
import TieredState.Text.Quoted

/-!
# Constants compared by identity

A constant is a value at a fixed address, and two constants are the same only if they are the same
address, whatever they hold. `Constants` registers them by name and never two names for one
address.
-/

namespace TieredState

/-- A type of which no more is known than a constant needs. -/
structure ForeignType where
  -- Types may share a name and are told apart by this.
  identity : Nat
  name : String
  -- Its values have an address of their own.
  hasRoom : Bool
  deriving DecidableEq, Repr

/-- The types of constants. -/
inductive ConstantType where
  | slice
  | text
  | integer
  | pair
  | unit
  | foreign (t : ForeignType)
  deriving DecidableEq, Repr

namespace ConstantType

/-- The type's name in declarations. -/
def name : ConstantType → String
  | slice => "str"
  | text => "alloc::string::String"
  | integer => "i64"
  | pair => "[i64; 2]"
  | unit => "()"
  | foreign t => t.name

/-- Whether values of the type have an address of their own. -/
def hasRoom : ConstantType → Bool
  | unit => false
  | foreign t => t.hasRoom
  | slice | text | integer | pair => true

end ConstantType

/-- What a constant can hold. -/
inductive ConstantValue where
  -- A part of a text that lies elsewhere.
  | slice (s : String)
  -- A text that owns its characters.
  | text (s : String)
  | integer (n : Int)
  | pair (a b : Int)
  -- The value that takes no room.
  | unit
  -- A value of a foreign type, with what a reference to it has beside its address.
  | foreign (t : ForeignType) (extent : Nat) (content : List UInt8)
  deriving DecidableEq, Repr

namespace ConstantValue

def type : ConstantValue → ConstantType
  | slice _ => .slice
  | text _ => .text
  | integer _ => .integer
  | pair _ _ => .pair
  | unit => .unit
  | foreign t _ _ => .foreign t

end ConstantValue

/-- A place in memory: a block and the number of bytes from its start. -/
structure Address where
  block : Nat
  offset : Nat
  deriving DecidableEq, Repr

/-- A value at a fixed place. -/
structure StableHandle where
  address : Address
  value : ConstantValue
  deriving DecidableEq, Repr

namespace StableHandle

/-- The length that belongs to a reference: slices that start at one place may differ in it. -/
def extent : ConstantValue → Nat
  | .slice s => s.utf8ByteSize
  | .foreign _ n _ => n
  | .text _ | .integer _ | .pair _ _ | .unit => 0

/-- Whether two handles are of one constant. -/
def same (a b : StableHandle) : Bool :=
  a.address = b.address && extent a.value = extent b.value

/-- The part of a text between two byte positions, if both lie between characters. -/
def cut? (s : String) (start stop : Nat) : Option String :=
  go s.toList 0
where
  -- Skip to the start.
  go : List Char → Nat → Option String
  | cs, at_ =>
    if at_ = start then (take cs at_).map String.ofList
    else
      match cs with
      | [] => none
      | c :: cs => if at_ < start then go cs (at_ + c.utf8Size) else none
  -- Take up to the end.
  take : List Char → Nat → Option (List Char)
  | cs, at_ =>
    if at_ = stop then some []
    else
      match cs with
      | [] => none
      | c :: cs => if at_ < stop then (take cs (at_ + c.utf8Size)).map (c :: ·) else none

/-- A handle to a part of the text behind `h`: it lies as many bytes further on as are cut off. -/
def slice? (h : StableHandle) (start stop : Nat) : Option StableHandle :=
  match h.value with
  | .slice s =>
    (cut? s start stop).map fun part =>
      ⟨{ h.address with offset := h.address.offset + start }, .slice part⟩
  | _ => none

/-- A handle to one of the two integers behind `h`, of eight bytes each. -/
def element? (h : StableHandle) (index : Nat) : Option StableHandle :=
  match h.value, index with
  | .pair a _, 0 => some ⟨h.address, .integer a⟩
  | .pair _ b, 1 => some ⟨{ h.address with offset := h.address.offset + 8 }, .integer b⟩
  | _, _ => none

end StableHandle

/-- The constants of one process. -/
structure Constants where
  -- Each constant under its name.
  entries : Table String StableHandle := ∅
  -- The name that is registered for each address.
  addresses : Table Address String := ∅
  -- The names in the order of definition.
  order : List String := []
  deriving Inhabited

namespace Constants

open Edit

def contains (r : Constants) (name : String) : Bool := r.entries.contains name

def size (r : Constants) : Nat := r.entries.size

/-- Register a value that has its place already. -/
def define (name : String) (h : StableHandle) : Edit Constants DeclarationError StableHandle := do
  refuseIf (·.contains name) (.duplicateConstant name)
  ask fun r =>
    match r.addresses.get? h.address with
    | some existing => .error (.aliasedConstant name existing)
    | none => .ok ()
  change fun r => { r with addresses := r.addresses.insert h.address name }
  change fun r => { r with entries := r.entries.insert name h }
  change fun r => { r with order := r.order ++ [name] }
  return h

/-- Put a value into a block of its own and register it. A value that takes no room cannot have
one. -/
def defineOwned (name : String) (block : Nat) (v : ConstantValue) :
    Edit Constants DeclarationError StableHandle := do
  refuseIf (fun _ => !v.type.hasRoom) (.invalidConstant name)
  refuseIf (·.contains name) (.duplicateConstant name)
  define name ⟨⟨block, 0⟩, v⟩

/-- The handle registered under a name, if it is of type `t`. -/
def lookup (r : Constants) (name : String) (t : ConstantType) : Option StableHandle :=
  (r.entries.get? name).filter (·.value.type = t)

/-- One unlocked global field for each constant. -/
def declarations (r : Constants) : List Field :=
  r.order.filterMap fun name => (r.entries.get? name).map fun h =>
    { name, tier := .global, type := h.value.type.name, constant := true }

/-- The names as a list of quoted texts. -/
def display (r : Constants) : String :=
  "[" ++ String.intercalate ", " (r.order.map Text.quote) ++ "]"

/-- The characters that need no quoting in a pattern. -/
def patternLeave : String := "\\.^$@dDwWsSbB+*?|()-nrtfeaxc0123456789[\x7b]\x7d"

/-- Define the constants that every process starts with: the canonical values of true and false, the
hexadecimal digits and the characters left alone when a pattern is quoted. -/
def defineBuiltin : Edit Constants DeclarationError Unit := do
  let _ ← defineOwned "Yes" 0 (.text "1")
  let _ ← defineOwned "No" 1 (.text "")
  let _ ← defineOwned "hexdigit" 2 (.text "0123456789abcdef0123456789ABCDEF")
  let _ ← defineOwned "patleave" 3 (.text patternLeave)

/-- The constants that every process starts with. -/
def builtin : Constants := (defineBuiltin.apply {}).2

/-- The first block that no constant of every process takes. -/
def firstFreeBlock : Nat := 4

end Constants

end TieredState
