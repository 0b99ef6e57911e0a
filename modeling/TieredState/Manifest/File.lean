import TieredState.Files
import TieredState.Log
import TieredState.Manifest.Basic

/-!
# Manifest files

Loading a manifest from a file, and the ways in which a manifest can be of no use.
-/

namespace TieredState

open Toml

inductive ManifestError where
  | unreadable (path : String) (cause : FileError)
  -- The text, of a file if it has a path, is no manifest.
  | document (path? : Option String) (e : DocumentError)
  -- The manifest's declarations break a rule.
  | invalid (e : DeclarationError)

namespace ManifestError

def message : ManifestError → String
  | unreadable path cause => "Failed to read manifest '" ++ path ++ "': " ++ cause.message
  | document (some path) _ => "Invalid manifest '" ++ path ++ "': " ++ DocumentError.heading
  | document none e => "Invalid manifest: " ++ e.message
  | invalid e => "Invalid declarations: " ++ e.message

end ManifestError

namespace Manifest

/-- Read a manifest file. -/
def load {m : Type → Type} [Monad m] [FileAccess m] (path : String) :
    m (Except ManifestError Manifest) := do
  match ← FileAccess.readText path with
  | .ok text => return (parse text).mapError (.document (some path))
  | .error cause => return .error (.unreadable path cause)

/-- The log lines of `load`, when a manifest was found. -/
def loadLog : List LogLine := [⟨.debug, .codegen⟩]

end Manifest

end TieredState
