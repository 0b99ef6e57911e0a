import TieredState.Policy.Basic

/-!
# The policy as a table of text

The locks come first with what they guard, then the fields of each tier, one on a line. Text is set
flush left or right in columns, the widths of which count characters, and text that is wider than its
column is written in full.
-/

namespace TieredState.Text

/-- Blanks that fill `s` up to `width` characters. -/
def fill (width : Nat) (s : String) : String :=
  String.ofList (List.replicate (width - s.length) ' ')

/-- Text at the left edge of its column. -/
def padRight (width : Nat) (s : String) : String := s ++ fill width s

/-- Text at the right edge of its column. -/
def padLeft (width : Nat) (s : String) : String := fill width s ++ s

end TieredState.Text

namespace TieredState.Policy

open Text

/-- A list of texts with a separator between them. -/
def joinWith (separator : String) (items : List String) : String :=
  String.intercalate separator items

def renderLock (p : Policy) (l : Lock) : String :=
  let guarded := match p.guardedFields l.name with
    | [] => "-"
    | names => joinWith ", " names
  "  " ++ padLeft 3 (toString l.rank) ++ "  " ++ padRight 14 l.name ++ " " ++ guarded ++ "\n"

/-- The names of a field's flags. -/
def flagNames (f : Field) : List String :=
  (if f.exported then ["export"] else []) ++
  (if f.persistent then ["persistent"] else []) ++
  (if f.constant then ["constant"] else [])

def renderField (f : Field) : String :=
  let lock := match f.lock? with
    | some l => f.protection.kind.name ++ "(" ++ l.name ++ ")"
    | none => "none"
  let flags := match flagNames f with
    | [] => ""
    | names => " [" ++ joinWith "," names ++ "]"
  let condition := match f.condition? with
    | some c => " cfg(" ++ c ++ ")"
    | none => ""
  "  " ++ padRight 16 f.name ++ " " ++ padRight 28 f.type ++ " " ++ lock ++ flags ++ condition ++ "\n"

def renderTier (p : Policy) (t : Tier) : String :=
  t.name ++ ":\n" ++ joinWith "" ((p.tierFields t).map renderField)

/-- The whole policy, grouped by tier. -/
def render (p : Policy) : String :=
  "locks (acquisition order):\n" ++ joinWith "" (p.locks.map p.renderLock) ++
    joinWith "" (Tier.all.map p.renderTier)

end TieredState.Policy
