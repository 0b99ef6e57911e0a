import TieredState.Manifest.Basic
import TieredState.Log

/-!
# From a manifest to a policy

`Manifest.policy` applies every rule on declarations to a manifest: first to the locks, then to the
names of the generated structures, then to one field after the other in the order of the manifest.

The names that generated code can declare are a letter or an underscore, then letters, digits and
underscores, all of ASCII, except the lone underscore and the reserved words.
-/

namespace TieredState

namespace Identifier

/-- The reserved words of the generated language, in its edition of 2021. -/
def keywords : List String := [
  "abstract", "as", "async", "await", "become", "box", "break", "const", "continue", "crate",
  "do", "dyn", "else", "enum", "extern", "false", "final", "fn", "for", "if", "impl", "in",
  "let", "loop", "macro", "match", "mod", "move", "mut", "override", "priv", "pub", "ref",
  "return", "self", "Self", "static", "struct", "super", "trait", "true", "try", "type",
  "typeof", "unsafe", "unsized", "use", "virtual", "where", "while", "yield"]

/-- Whether generated code can declare a name. -/
def isValid (name : String) : Bool :=
  (match name.toList with
    | [] => false
    | c :: cs => (c.isAlpha || c = '_') && cs.all fun c => c.isAlphanum || c = '_') &&
  name ≠ "_" && !keywords.contains name

end Identifier

namespace FieldEntry

/-- The placement that a field entry describes, if it describes one. -/
def placement? (f : FieldEntry) : Option Placement :=
  match f.beforeInstance?, f.perThread? with
  | none, none => none
  | before, perThread => some ⟨before.getD false, perThread.getD false⟩

/-- The field's tier: the one declared or the one that its placement gives, which have to agree
where there are both. -/
def resolveTier (f : FieldEntry) (instancesSupported : Bool) : Except DeclarationError Tier :=
  match f.tier?, f.placement?.map (Tier.classify · instancesSupported) with
  | none, none => .error (.missingTier f.name)
  | some declared, some classified =>
    if declared ≠ classified then .error (.tierConflict f.name declared classified)
    else .ok declared
  | some tier, none | none, some tier => .ok tier

/-- How the field is guarded, by one of the declared locks. -/
def resolveProtection (f : FieldEntry) (locks : List Lock) : Except DeclarationError Protection :=
  match f.lock? with
  | none => .ok .unlocked
  | some name =>
    match locks.find? (·.name = name) with
    | none => .error (.unknownLock f.name name)
    | some l => .ok (if f.readMostly then .readMostly l else .mutex l)

/-- The declaration that a field entry stands for. -/
def resolve (f : FieldEntry) (locks : List Lock) (instancesSupported : Bool) :
    Except DeclarationError Field := do
  let tier ← f.resolveTier instancesSupported
  let protection ← f.resolveProtection locks
  return {
    name := f.name
    tier
    type := f.type
    initial? := f.initial?
    condition? := f.condition?
    protection
    exported := f.exported
    persistent := f.persistent
    constant := f.constant }

end FieldEntry

namespace Manifest

/-- The declared locks in the order of the manifest. -/
def lockList (m : Manifest) : List Lock := m.locks.map fun l => ⟨l.name, l.rank⟩

/-- The first lock whose generated constant is that of a lock before it, with that lock. -/
def collision? : List Lock → List Lock → Option (Lock × Lock)
  | _, [] => none
  | seen, l :: ls =>
    match seen.find? (·.constantName = l.constantName) with
    | some existing => some (l, existing)
    | none => collision? (seen ++ [l]) ls

/-- A name that generated code can declare. -/
def checkIdentifier (name : String) : Except DeclarationError Unit :=
  if Identifier.isValid name then .ok () else .error (.invalidIdentifier name)

/-- The policy of the locks alone, once the names that are generated for the manifest as a whole
are known to be usable. -/
def lockPolicy (m : Manifest) : Except DeclarationError Policy := do
  let p ← Policy.ofLocks m.lockList
  match collision? [] m.lockList with
  | some (l, existing) => .error (.lockNameCollision l.name existing.name l.constantName)
  | none => do
    checkIdentifier m.build.globalStruct
    checkIdentifier m.build.instanceStruct
    checkIdentifier m.build.threadStruct
    return p

/-- Add the declaration of one field entry to a policy. -/
def declareEntry (m : Manifest) (p : Policy) (f : FieldEntry) : Except DeclarationError Policy := do
  checkIdentifier f.name
  p.declare (← f.resolve m.lockList m.build.instances)

/-- The policy of a manifest, if its declarations keep the rules. -/
def policy (m : Manifest) : Except DeclarationError Policy := do
  m.fields.foldlM m.declareEntry (← m.lockPolicy)

end Manifest

/-! ## What is logged -/

namespace Policy

/-- The log lines of an attempt to add a field. -/
def declareLog (p : Policy) (f : Field) : List LogLine :=
  match p.declare f with
  | .ok _ => [⟨.debug, .policy⟩]
  | .error (.duplicateField _) => [⟨.warn, .policy⟩]
  | .error _ => []

/-- The log lines of adding locks: only a refused one is told. -/
def locksLog (locks : List Lock) : List LogLine :=
  match ofLocks locks with
  | .ok _ => []
  | .error _ => [⟨.warn, .policy⟩]

end Policy

namespace Manifest

/-- The log lines of resolving a field entry: that it is read mostly means nothing without a lock,
and is told once its tier is known. -/
def resolveLog (m : Manifest) (f : FieldEntry) : List LogLine :=
  match f.resolveTier m.build.instances with
  | .ok _ => if f.lock?.isNone && f.readMostly then [⟨.warn, .codegen⟩] else []
  | .error _ => []

/-- The log lines of adding field entries, up to the first that is refused. -/
def fieldsLog (m : Manifest) : Policy → List FieldEntry → List LogLine
  | _, [] => []
  | p, f :: fs =>
    match checkIdentifier f.name with
    | .error _ => []
    | .ok _ =>
      m.resolveLog f ++
        match f.resolve m.lockList m.build.instances with
        | .error _ => []
        | .ok field =>
          p.declareLog field ++
            match p.declare field with
            | .ok p' => m.fieldsLog p' fs
            | .error _ => []

/-- The log lines of `policy`. -/
def policyLog (m : Manifest) : List LogLine :=
  Policy.locksLog m.lockList ++
    match m.lockPolicy with
    | .ok p => m.fieldsLog p m.fields
    | .error _ => []

end Manifest

end TieredState
