import TieredState.Declared
import TieredState.Constants
import TieredState.Log

/-!
# The declarations of the state layer itself

The fields of the three tiers that every runtime has, and the policy made of them, of the built-in
locks and of the constants that every process starts with.
-/

namespace TieredState.Builtin

/-- What a built-in field holds, as far as declarations are concerned. -/
inductive Content where
  | number (n : Int)
  | flag (b : Bool)
  | text (s : String)
  | optionalText (s : Option String)
  -- A value of a type with operations of its own.
  | other
  deriving DecidableEq, Repr

/-- Fields shared by every instance of a process. The allocation figures exist where allocations
are tracked. -/
def globalVars (trackedAlloc : Bool) : StateStruct Content where
  tier := .global
  clauses := [
    { name := "registry", type := "Registry", initialText := "Registry::new()", initial := .other,
      protection := .mutex .registry },
    { name := "hooks", type := "LifecycleHooks", initialText := "LifecycleHooks::new()",
      initial := .other, protection := .readMostly .hooks },
    { name := "thread_key", type := "ThreadKey", initialText := "ThreadKey::acquire()",
      initial := .other },
    { name := "do_undump", type := "Flag", initialText := "Flag::new(false)",
      initial := .flag false, flags := [.exported] },
    { name := "early_taint", type := "Flag", initialText := "Flag::new(false)",
      initial := .flag false },
    { name := "sh_path", type := "String", initialText := "String::from(\"/bin/sh\")",
      initial := .text "/bin/sh", flags := [.exported], protection := .readMostly .shPath },
    { name := "program_name", type := "String", initialText := "String::new()",
      initial := .text "", flags := [.exported], protection := .mutex .programName },
    { name := "op_refcounts", type := "OpRefTable", initialText := "OpRefTable::default()",
      initial := .other, condition? := some ("feature = \"threads\"", true),
      protection := .mutex .opRefcount },
    { name := "alloc_stats", type := "AllocStats", initialText := "AllocStats::default()",
      initial := .other,
      condition? := some ("all(feature = \"tracked-alloc\", feature = \"threads\")", trackedAlloc),
      protection := .mutex .alloc }]
  distinct := by cases trackedAlloc <;> decide

/-- Fields owned by one instance. -/
def instanceVars : StateStruct Content where
  tier := .perInstance
  clauses := [
    { name := "tainting", type := "bool", initialText := "false", initial := .flag false },
    { name := "exit_code", type := "i32", initialText := "0", initial := .number 0 },
    { name := "sub_generation", type := "u64", initialText := "1", initial := .number 1 },
    { name := "sv_count", type := "usize", initialText := "0", initial := .number 0 },
    { name := "extensions", type := "Extensions", initialText := "Extensions::new()",
      initial := .other }]

/-- Fields owned by one binding of a thread. -/
def threadVars : StateStruct Content where
  tier := .perThread
  clauses := [
    { name := "stack_depth", type := "usize", initialText := "0", initial := .number 0 },
    { name := "last_error", type := "Option<String>", initialText := "None",
      initial := .optionalText none },
    { name := "locale", type := "Option<String>", initialText := "None",
      initial := .optionalText none, flags := [.persistent] }]

/-- Every declared field: the global ones, the constants, then those of instances and threads. -/
def fields (trackedAlloc : Bool) : List Field :=
  (globalVars trackedAlloc).declarations ++ Constants.builtin.declarations ++
    instanceVars.declarations ++ threadVars.declarations

/-- The policy for every declared field. -/
def policy (trackedAlloc : Bool) : Except DeclarationError Policy :=
  Policy.ofDeclarations Lock.builtin (fields trackedAlloc)

/-- The log lines of `policy`: one for each field. -/
def policyLog (trackedAlloc : Bool) : List LogLine :=
  (fields trackedAlloc).map fun _ => ⟨.debug, .policy⟩

end TieredState.Builtin
