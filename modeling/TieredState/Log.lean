import TieredState.Decimal.Reading

/-!
# Log levels and lines

A log line is known here by its level and by the part of the state layer that it comes from.
-/

namespace TieredState

/-- Severity of a log line, from the gravest on. -/
inductive Level where
  | error
  | warn
  | info
  | debug
  | trace
  deriving DecidableEq, Repr, Inhabited

namespace Level

def all : List Level := [error, warn, info, debug, trace]

def name : Level → String
  | error => "ERROR"
  | warn => "WARN"
  | info => "INFO"
  | debug => "DEBUG"
  | trace => "TRACE"

/-- The number of a level, one for the gravest. -/
def number : Level → Nat
  | error => 1
  | warn => 2
  | info => 3
  | debug => 4
  | trace => 5

/-- The level that lets through the lines of both. -/
def max (a b : Level) : Level := if a.number ≤ b.number then b else a

/-- Text with its letters in upper case. -/
def upper (s : String) : List Char := s.toList.map Char.toUpper

/-- The level that a text stands for: its name in any case, or its number. -/
def ofText? (s : String) : Option Level :=
  match all.find? fun l => upper s = l.name.toList with
  | some l => some l
  | none => (Decimal.numeral? s).bind fun n => all.find? (·.number = n)

end Level

/-- The part of the state layer that a log line comes from. -/
inductive LogTarget where
  | registry
  | binding
  | lock
  | policy
  | codegen
  deriving DecidableEq, Repr

namespace LogTarget

def name : LogTarget → String
  | registry => "tierstate::registry"
  | binding => "tierstate::binding"
  | lock => "tierstate::lock"
  | policy => "tierstate::policy"
  | codegen => "tierstate::codegen"

end LogTarget

/-- One log line. -/
structure LogLine where
  level : Level
  target : LogTarget
  deriving DecidableEq, Repr

namespace LogLine

/-- The line's level and target as text. -/
def text (l : LogLine) : String := l.level.name ++ " " ++ l.target.name

/-- The lines that a log of level `most` shows. -/
def shown (most : Level) (lines : List LogLine) : List LogLine :=
  lines.filter (·.level.number ≤ most.number)

end LogLine

end TieredState
