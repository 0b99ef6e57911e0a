import TieredState.Decimal.Reading

/-!
# Values of a configuration document

A document is a tree of tables, arrays and plain values. A table keeps its entries in the order in
which they stand in the document, and remembers how it came to be, because that decides which later
statement may add to it.
-/

namespace TieredState.Toml

/-- How a table came to be. -/
inductive Origin where
  -- By a header of its own, or as the document itself.
  | headed
  -- By a header further down.
  | implied
  -- By a dotted key of a statement.
  | dotted
  -- Between braces.
  | braced
  -- By a dotted key between braces.
  | bracedDotted
  deriving DecidableEq, Repr

/-- A value of a document. -/
inductive Value where
  | text (s : String)
  | integer (n : Int)
  | float (x : Decimal.Binary64)
  | boolean (b : Bool)
  -- A date, a time or both. Nothing here looks inside one.
  | moment
  -- The elements of an array; `headed` when it was built by headers.
  | array (headed : Bool) (items : List Value)
  | table (origin : Origin) (entries : List (String × Value))
  deriving Repr, Inhabited

/-- The entries of a table in order. -/
abbrev Entries := List (String × Value)

namespace Entries

def find? (es : Entries) (key : String) : Option Value := es.lookup key

/-- Replace the value under `key`, or add it at the end. -/
def put (es : Entries) (key : String) (v : Value) : Entries :=
  if es.any (·.1 == key) then es.map fun e => if e.1 = key then (key, v) else e
  else es ++ [(key, v)]

def remove (es : Entries) (key : String) : Entries := es.filter (·.1 ≠ key)

end Entries

end TieredState.Toml
