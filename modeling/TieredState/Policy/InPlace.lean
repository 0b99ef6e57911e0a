import TieredState.Policy.Basic

/-!
# Declarations in place

A policy may be handed out while it is built, and then each declaration is made in place. A field goes
to up to three parts of the policy, one after another, so a refusal that came between two of them would
leave the field half declared.

A call that works on a state in place may have changed a part of it by the time it fails. An `Edit`
keeps what it has changed, however it ends. It is put together from questions, which may refuse and
change nothing, and changes, which are always made.
-/

namespace TieredState

/-- A call that works on a state in place. What it has changed when it fails stays changed. -/
abbrev Edit (σ ε α : Type) := ExceptT ε (StateM σ) α

namespace Edit

variable {σ ε α : Type}

/-- Ask the state something. The answer may be a refusal. -/
def ask (question : σ → Except ε α) : Edit σ ε α := fun s => (question s, s)

/-- Refuse a state that the condition holds of. -/
def refuseIf (condition : σ → Bool) (err : ε) : Edit σ ε Unit :=
  ask fun s => if condition s then .error err else .ok ()

/-- Make a change. -/
def change (f : σ → σ) : Edit σ ε Unit := fun s => (.ok (), f s)

/-- What comes of the call, and the state that it leaves. -/
def apply (e : Edit σ ε α) (s : σ) : Except ε α × σ := e s

end Edit

namespace Policy.InPlace

open Edit

/-- Add a lock whose name and rank are both unused. -/
def declareLock (l : Lock) : Edit Policy DeclarationError Unit := do
  refuseIf (fun p => p.locks.any fun m => m.name = l.name || m.rank = l.rank)
    (.duplicateLock l.name l.rank)
  change fun p => { p with locks := insertByRank l p.locks }

/-- Put a field under its lock, if it has one. -/
def enterGroup (f : Field) : Edit Policy DeclarationError Unit :=
  match f.lock? with
  | none => pure ()
  | some l => do
    ask fun p => p.checkGuard f.name f.tier l f.protection.kind
    change fun p => p.join l f.name

/-- Add a field. -/
def declare (f : Field) : Edit Policy DeclarationError Unit := do
  refuseIf (·.index.contains f.name) (.duplicateField f.name)
  ask fun _ => checkFlags f
  enterGroup f
  change fun p => { p with index := p.index.insert f.name p.fields.length }
  change fun p => { p with fields := p.fields ++ [f] }

/-- The position of a field, with the field. -/
def locate (name : String) : Edit Policy DeclarationError (Nat × Field) :=
  ask fun p =>
    match (p.index.get? name).bind fun k => p.fields[k]?.map (k, ·) with
    | none => .error (.unknownField name)
    | some found => .ok found

/-- Guard a field that is declared and has no lock yet. -/
def bind (name : String) (protection : Protection) : Edit Policy DeclarationError Unit := do
  let (k, f) ← locate name
  match protection.lock? with
  | none => pure ()
  | some l => do
    ask fun _ =>
      match f.lock? with
      | some existing => .error (.fieldAlreadyLocked name existing.name l.name)
      | none => .ok ()
    refuseIf (fun _ => f.constant) (.invalidConstant name)
    ask fun p => p.checkGuard name f.tier l protection.kind
    change fun p => p.join l name
    change fun p => { p with fields := p.fields.modify k fun g => { g with protection } }

end Policy.InPlace

end TieredState
