import TieredState.Toml.Document
import TieredState.Toml.Shape

/-!
# Records in documents

Reading a record from the text of a document.
-/

namespace TieredState.Toml

/-- Why a text does not give the record asked for. -/
inductive DocumentError where
  -- The text is no document.
  | malformed
  -- The document does not have the record's shape.
  | shape (e : ShapeError)
  deriving Repr

namespace DocumentError

/-- What an error in a file is headed by; where in the file it lies is not kept. -/
def heading : String := "TOML parse error"

def message : DocumentError → String
  | malformed => heading
  | shape e => e.message

end DocumentError

/-- Read a record from the outermost table of a text. -/
def RecordShape.parse {σ : Type} (shape : RecordShape σ) (text : String) :
    Except DocumentError σ :=
  match Document.parse? text with
  | none => .error .malformed
  | some entries => (shape.ofEntries entries).mapError .shape

end TieredState.Toml
