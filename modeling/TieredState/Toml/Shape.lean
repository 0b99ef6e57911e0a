import TieredState.Toml.Value
import TieredState.Decimal.Shortest
import TieredState.Text.Quoted

/-!
# Shapes of values

Reading a typed value out of a document. A record is described by its keys and read entry by entry
in the order of the document; the first fault ends the reading. A key that is required and absent is
found missing after all entries were read.
-/

namespace TieredState.Toml

/-- Why a value does not have the shape asked for. -/
inductive ShapeError where
  -- A record has no such key.
  | unknownKey (key : String) (expected : List String)
  -- A required key is absent.
  | missingKey (key : String)
  -- A name is none of those allowed.
  | unknownName (name : String) (expected : List String)
  -- An integer is out of range.
  | outOfRange (n : Int) (expected : String)
  -- A value is of another kind.
  | wrongKind (found : Value) (expected : String)
  -- An array that stands for a record has no element for a required key, at this position among
  -- the keys.
  | tooShort (position : Nat) (expected : String)
  -- A name was asked for, and the value is neither text nor a table.
  | noName
  -- A table that stands for a name has not one entry: whether it has more.
  | entryCount (more : Bool)
  -- A table that stands for a name has something under its key.
  | nameContent (found : Value)
  deriving Repr

namespace ShapeError

/-- A name between grave accents. -/
def mark (s : String) : String := "`" ++ s ++ "`"

/-- The names that would have been right. -/
def listing : List String → String
  | [] => "there are no fields"
  | [a] => mark a
  | [a, b] => mark a ++ " or " ++ mark b
  | names => "one of " ++ String.intercalate ", " (names.map mark)

/-- What a value is, with its content where it is plain. -/
def describe : Value → String
  | .text s => "string " ++ Text.quote s
  | .integer n => "integer " ++ mark (toString n)
  | .float x => "floating point " ++ mark x.text
  | .boolean b => "boolean " ++ mark (if b then "true" else "false")
  | .moment => "map"
  | .array _ _ => "sequence"
  | .table _ _ => "map"

/-- What stands under the key of a table that stands for a name. -/
def contentMessage : Value → String
  | .array _ _ => "expected empty array"
  | .table _ _ => "expected empty table"
  | .text _ => "expected table, found string"
  | .integer _ => "expected table, found integer"
  | .float _ => "expected table, found float"
  | .boolean _ => "expected table, found boolean"
  | .moment => "expected table, found datetime"

def message : ShapeError → String
  | unknownKey k names => "unknown field " ++ mark k ++ ", expected " ++ listing names
  | missingKey k => "missing field " ++ mark k
  | unknownName n names => "unknown variant " ++ mark n ++ ", expected " ++ listing names
  | outOfRange n expected => "invalid value: integer " ++ mark (toString n) ++ ", expected " ++ expected
  | wrongKind v expected => "invalid type: " ++ describe v ++ ", expected " ++ expected
  | tooShort n expected => "invalid length " ++ toString n ++ ", expected " ++ expected
  | noName => "wanted string or table"
  | entryCount more =>
    if more then "wanted exactly 1 element, more than 1 element"
    else "wanted exactly 1 element, found 0 elements"
  | nameContent v => contentMessage v

end ShapeError

namespace Value

def asText : Value → Except ShapeError String
  | .text s => .ok s
  | v => .error (.wrongKind v "a string")

def asBoolean : Value → Except ShapeError Bool
  | .boolean b => .ok b
  | v => .error (.wrongKind v "a boolean")

/-- A natural number below `bound`, of the type called `title`. -/
def asNatural (bound : Nat) (title : String) : Value → Except ShapeError Nat
  | .integer n => if 0 ≤ n ∧ n < bound then .ok n.toNat else .error (.outOfRange n title)
  | v => .error (.wrongKind v title)

/-- A list of values that all have the shape `element`. -/
def asList (element : Value → Except ShapeError α) : Value → Except ShapeError (List α)
  | .array _ items => items.mapM element
  | v => .error (.wrongKind v "a sequence")

/-- Whether a value is an array or a table with nothing in it. -/
def isEmptyContent : Value → Bool
  | .array _ items => items.isEmpty
  | .table _ entries => entries.isEmpty
  | _ => false

/-- One of a number of names: as text, or as the only key of a table with nothing under it. -/
def asName (names : List (String × α)) : Value → Except ShapeError α
  | .text s => find s
  | .table _ [] => .error (.entryCount false)
  | .table _ [(k, content)] => do
    let a ← find k
    if content.isEmptyContent then return a else .error (.nameContent content)
  | .table _ _ => .error (.entryCount true)
  | _ => .error .noName
where
  find (s : String) : Except ShapeError α :=
    match names.lookup s with
    | some a => .ok a
    | none => .error (.unknownName s (names.map (·.1)))

end Value

/-- A key of a record: its name, whether it has to be there, and how its value is stored. -/
structure Key (σ : Type) where
  name : String
  required : Bool := false
  store : Value → σ → Except ShapeError σ

/-- A key whose value is read by `read` and put into the record by `put`. -/
def Key.of {σ α : Type} (name : String) (read : Value → Except ShapeError α) (put : α → σ → σ)
    (required : Bool := false) : Key σ where
  name := name
  required := required
  store v r := (read v).map fun a => put a r

/-- The shape of a record. -/
structure RecordShape (σ : Type) where
  -- What messages call the record.
  title : String
  -- The keys in the order of declaration.
  keys : List (Key σ)
  -- Keys that are not listed are refused, and not skipped.
  closed : Bool
  -- The record before any key was read.
  start : σ

namespace RecordShape

variable {σ : Type} (shape : RecordShape σ)

/-- Store one entry of a table. -/
def storeEntry (r : σ) (entry : String × Value) : Except ShapeError σ :=
  match shape.keys.find? (·.name = entry.1) with
  | some key => key.store entry.2 r
  | none =>
    if shape.closed then .error (.unknownKey entry.1 (shape.keys.map (·.name))) else .ok r

/-- The first required key that is not among the entries. -/
def missing? (entries : Entries) : Option (Key σ) :=
  shape.keys.find? fun key => key.required && (entries.find? key.name).isNone

/-- Read the record from the entries of a table. -/
def ofEntries (entries : Entries) : Except ShapeError σ := do
  let r ← entries.foldlM shape.storeEntry shape.start
  match shape.missing? entries with
  | some key => .error (.missingKey key.name)
  | none => return r

/-- Read the record from values in the order of the keys, the first of which stands at `position`.
Values left over are not looked at. -/
def ofItems : List (Key σ) → Nat → List Value → σ → Except ShapeError σ
  | [], _, _, r => .ok r
  | key :: keys, position, v :: vs, r => do ofItems keys (position + 1) vs (← key.store v r)
  | key :: keys, position, [], r =>
    if key.required then
      .error (.tooShort position (shape.title ++ " with " ++ toString shape.keys.length ++ " elements"))
    else ofItems keys (position + 1) [] r

/-- The only entry that a date has when it is taken for a table. -/
def momentEntries : Entries := [("$__toml_private_datetime", .moment)]

/-- Read the record from a table, or from an array with the values in the order of the keys. -/
def read : Value → Except ShapeError σ
  | .table _ entries => shape.ofEntries entries
  | .moment => shape.ofEntries momentEntries
  | .array _ items => shape.ofItems shape.keys 0 items shape.start
  | v => .error (.wrongKind v shape.title)

end RecordShape

end TieredState.Toml
