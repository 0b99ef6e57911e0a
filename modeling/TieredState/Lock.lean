/-!
# Locks and the locks a thread holds

A lock has a name and a fixed rank, and a thread may take a lock only if its rank is above that of
every lock the thread already holds. `Held` is the record of one thread's locks. The check comes
before any waiting, so a request out of order is refused and never waits.
-/

namespace TieredState

/-- Identity and rank of one lock. -/
structure Lock where
  name : String
  rank : Nat
  deriving DecidableEq, Repr, Inhabited

namespace Lock

/-- Guards the variables of one instance. -/
def instanceVars : Lock := ⟨"instance", 0⟩
/-- Guards the live instances of a process. -/
def registry : Lock := ⟨"registry", 10⟩
/-- Guards the lifecycle hooks of a process. -/
def hooks : Lock := ⟨"hooks", 20⟩
/-- Guards the shell path. -/
def shPath : Lock := ⟨"sh_path", 30⟩
/-- Guards the program name. -/
def programName : Lock := ⟨"program_name", 40⟩
/-- Guards the reference counts of shared op trees. -/
def opRefcount : Lock := ⟨"op_refcount", 50⟩
/-- Guards the allocation figures. -/
def alloc : Lock := ⟨"alloc", 60⟩

/-- The locks of the state layer itself, lowest rank first. -/
def builtin : List Lock :=
  [instanceVars, registry, hooks, shPath, programName, opRefcount, alloc]

/-- A lock as text: its name and rank around a number sign. -/
def display (l : Lock) : String := l.name ++ "#" ++ toString l.rank

/-- The name of the constant generated for the lock: its letters and digits in upper case, an
underscore for every other character, and one in front where a digit would come first. -/
def constantName (l : Lock) : String :=
  let stem := l.name.toList.map fun c => if c.isAlphanum then c.toUpper else '_'
  let start := match stem with
    | c :: _ => if c.isDigit then ['_'] else []
    | [] => []
  String.ofList (start ++ stem ++ "_LOCK".toList)

end Lock

/-- The locks that a thread holds, in the order in which it took them. -/
abbrev Held := List Lock

namespace Held

/-- The held lock that stands in the way of `l`: of those whose rank is not below that of `l`, the
highest ranked. -/
def blocking? (held : Held) (l : Lock) : Option Lock :=
  (held.filter (l.rank ≤ ·.rank)).foldl
    (fun best h => match best with
      | some b => if b.rank ≤ h.rank then some h else some b
      | none => some h)
    none

/-- Take `l`, or report the lock that stands in its way. -/
def acquire (held : Held) (l : Lock) : Except Lock Held :=
  match held.blocking? l with
  | some b => .error b
  | none => .ok (held ++ [l])

/-- Give back the latest acquisition of `l`. -/
def release (held : Held) (l : Lock) : Held := (held.reverse.erase l).reverse

end Held

end TieredState
