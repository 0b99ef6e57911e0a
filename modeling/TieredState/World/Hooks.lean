import TieredState.World.Identity

/-!
# Lifecycle hooks

Callbacks for the creation and for the destruction of instances, in the order of registration. A
dispatch runs the list as it was when the dispatch began.
-/

namespace TieredState

/-- The event on which a hook runs. -/
inductive HookEvent where
  | created
  | destroyed
  deriving DecidableEq, Repr

/-- The hooks of one process. -/
structure Hooks where
  created : List (HookId × CallbackId) := []
  destroyed : List (HookId × CallbackId) := []
  nextId : Nat := 0
  deriving DecidableEq, Repr, Inhabited

namespace Hooks

def size (h : Hooks) : Nat := h.created.length + h.destroyed.length

/-- The hooks registered for an event. -/
def list (h : Hooks) : HookEvent → List (HookId × CallbackId)
  | .created => h.created
  | .destroyed => h.destroyed

def register (h : Hooks) (e : HookEvent) (c : CallbackId) : HookId × Hooks :=
  let id : HookId := ⟨h.nextId⟩
  (id, match e with
    | .created => { h with created := h.created ++ [(id, c)], nextId := h.nextId + 1 }
    | .destroyed => { h with destroyed := h.destroyed ++ [(id, c)], nextId := h.nextId + 1 })

/-- Remove a hook, and tell whether it was there. -/
def remove (h : Hooks) (id : HookId) : Bool × Hooks :=
  let h' := { h with
    created := h.created.filter (·.1 ≠ id)
    destroyed := h.destroyed.filter (·.1 ≠ id) }
  (h.size ≠ h'.size, h')

/-- What a dispatch of an event has to call. -/
def snapshot (h : Hooks) (e : HookEvent) : List CallbackId := (h.list e).map (·.2)

def display (h : Hooks) : String :=
  "LifecycleHooks \x7b created: " ++ toString h.created.length ++ ", destroyed: " ++
    toString h.destroyed.length ++ " \x7d"

end Hooks

end TieredState
