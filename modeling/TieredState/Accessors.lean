import TieredState.Manifest.Policy
import TieredState.Text.Quoted

/-!
# Generated accessors

The two texts written for a manifest: declarations of every lock and of the fields of every tier,
and a linker script that keeps the exported fields visible. Both depend on the policy and on the
names in the manifest only: locks come by rank, fields in the order of declaration.
-/

namespace TieredState

/-- What is written for one manifest. -/
structure Accessors where
  declarations : String
  exportScript : String
  deriving DecidableEq, Repr

namespace Accessors

/-- The initial value of a field that names none. -/
def defaultInitial : String := "Default::default()"

/-- The constant of one lock. -/
def lockLine (l : Lock) : String :=
  "pub const " ++ l.constantName ++ ": LockId = LockId::new(" ++ Text.quote l.name ++ ", " ++
    toString l.rank ++ ");\n"

/-- How a field is guarded, after its initial value. -/
def protectionClause : Protection → String
  | .unlocked => ""
  | .mutex l => " => locked(" ++ l.constantName ++ ")"
  | .readMostly l => " => read_mostly(" ++ l.constantName ++ ")"

/-- A field's flags, each with a blank after it. -/
def flagMarks (f : Field) : String :=
  (if f.exported then "@export " else "") ++
  (if f.persistent then "@persistent " else "") ++
  (if f.constant then "@constant " else "")

/-- The clause of one field. -/
def fieldClause (f : Field) : String :=
  (match f.condition? with
    | some c => "        #[cfg(" ++ c ++ ")]\n"
    | none => "") ++
  "        " ++ flagMarks f ++ f.name ++ ": " ++ f.type ++ " = " ++ f.initial?.getD defaultInitial ++
    protectionClause f.protection ++ ",\n"

/-- The block of one tier; a tier without fields has none. -/
def tierBlock (p : Policy) (build : BuildOptions) (t : Tier) : String :=
  match p.tierFields t with
  | [] => ""
  | fields =>
    "\ntierstate::state_vars! \x7b\n    pub struct " ++ build.structName t ++ ": " ++ t.title ++
      " \x7b\n" ++ String.join (fields.map fieldClause) ++ "    \x7d\n\x7d\n"

/-- The constants of the locks, with the import that they need. -/
def lockBlock (p : Policy) : String :=
  match p.locks with
  | [] => ""
  | locks => "use tierstate::state::LockId;\n\n" ++ String.join (locks.map lockLine)

/-- The text of the declarations, made from the file called `source`. -/
def renderDeclarations (p : Policy) (build : BuildOptions) (source : String) : String :=
  "// @generated by tierstate from " ++ source ++ ". Do not edit.\n\n" ++ lockBlock p ++
    String.join (Tier.all.map (tierBlock p build))

/-- The text of the linker script: each exported field with `symbolStart` in front of its name, and
nothing else, is visible. -/
def renderExportScript (p : Policy) (symbolStart : String) : String :=
  "/* @generated by tierstate. Do not edit. */\n\x7b\n" ++
    (match p.exports with
      | [] => ""
      | fields =>
        "  global:\n" ++ String.join (fields.map fun f => "    " ++ symbolStart ++ f.name ++ ";\n")) ++
    "  local:\n    *;\n\x7d;\n"

end Accessors

namespace Manifest

/-- Check a manifest's declarations and write both texts. -/
def accessors (m : Manifest) (source symbolStart : String) : Except DeclarationError Accessors := do
  let p ← m.policy
  return {
    declarations := Accessors.renderDeclarations p m.build source
    exportScript := Accessors.renderExportScript p symbolStart }

/-- The log lines of `accessors`. -/
def accessorsLog (m : Manifest) : List LogLine :=
  m.policyLog ++
    match m.policy with
    | .ok _ => [⟨.debug, .codegen⟩]
    | .error _ => []

end Manifest

end TieredState
