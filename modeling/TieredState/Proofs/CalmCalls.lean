import TieredState.Proofs.Calm
import TieredState.Session.Machine

/-!
# Calm calls

Of the calls that a script can make, only a few are not calm: those that start a process, bind or
release a thread, end a thread, and those that create, destroy or shut down. A call on a registry in
hand, which goes past every check, is not calm either.

* `calm_plainProcessCall` — the calls on a process that run no hooks, but for `bind` and `release`.
* `calm_plainCall` — the calls other than those on a process, but for `startsProcess`, `endThread`
  and `editsRegistry`.
-/

namespace TieredState

namespace FocusCall

/-- The call changes a registry in hand. -/
def editsRegistry : FocusCall → Bool
  | insertInstance _ | removeInstance _ => true
  | _ => false

end FocusCall

namespace Call

/-- The call may start a process. -/
def startsProcess : Call → Bool
  | start _ _ | foreign .start => true
  | _ => false

/-- The call ends a worker thread. -/
def endsThread : Call → Bool
  | endThread _ => true
  | _ => false

/-- The call changes a registry in hand, past every check. -/
def editsRegistry : Call → Bool
  | focus c => c.editsRegistry
  | _ => false

end Call

namespace Session

open World

variable {s : Session} {ctx : Context} {tok : Token}

/-! ## What is kept under a name -/

@[simp] theorem world_withWorld (s : Session) (w : World) : (s.withWorld w).world = w := rfl

@[simp] theorem world_keepInstance (s : Session) (as? : Option Name) (id : InstanceId) :
    (s.keepInstance as? id).world = s.world := by
  cases as? <;> rfl

@[simp] theorem world_keepFound (s : Session) (as? : Option Name) (id? : Option InstanceId) :
    (s.keepFound as? id?).world = s.world := by
  cases id? with
  | none => rfl
  | some id => exact world_keepInstance s as? id

@[simp] theorem world_keepHandle (s : Session) (t : ThreadId) (as? : Option Name) (h : Handle) :
    (s.keepHandle t as? h).world = s.world := by
  cases as? <;> rfl

@[simp] theorem world_keepHook (s : Session) (as? : Option Name) (id : HookId) :
    (s.keepHook as? id).world = s.world := by
  cases as? <;> rfl

@[simp] theorem world_keepAnswer (s : Session) (as? : Option Name)
    (r : Except AccessError (Option InstanceId)) : (s.keepAnswer as? r).2.world = s.world := by
  cases r with
  | error e => rfl
  | ok id? => exact world_keepFound s as? id?

/-- A change of the world is calm, with what it answers, if it is so whenever it succeeds. -/
theorem calm_change {α : Type} {f : α → Answer} {r : Except AccessError (α × World)}
    (h : ∀ a w, r = .ok (a, w) → Calm s.world w) : Calm s.world (s.change f r).2.world := by
  cases r with
  | error e => exact .refl _
  | ok p => exact h p.1 p.2 rfl

/-- A change of the world without an answer is calm if it is so whenever it succeeds. -/
theorem calm_effect {r : Except AccessError World} (h : ∀ w, r = .ok w → Calm s.world w) :
    Calm s.world (s.effect r).2.world := by
  cases r with
  | error e => exact .refl _
  | ok w => exact h w rfl

/-! ## Calls on a process -/

/-- Calls to a process are calm, but for those that bind its thread or release the binding. -/
theorem calm_plainProcessCall {p : Process} {c : ProcessCall} (hbind : ∀ i as?, c ≠ .bind i as?)
    (hrelease : c ≠ .release) : Calm s.world (s.plainProcessCall ctx tok p c).2.world := by
  cases c with
  | bind i as? => exact absurd rfl (hbind i as?)
  | release => exact absurd rfl hrelease
  | install => exact calm_install s.world tok
  | find i as? =>
    simp only [plainProcessCall]
    split
    · exact .refl _
    · rw [world_keepAnswer]
      exact .refl _
  | initial as? =>
    simp only [plainProcessCall, world_keepAnswer]
    exact .refl _
  | current as? =>
    simp only [plainProcessCall]
    split
    · rw [world_keepInstance]
      exact .refl _
    · exact .refl _
  | currentThread as? =>
    simp only [plainProcessCall]
    split
    · rw [world_keepHandle]
      exact .refl _
    · exact .refl _
  | removeHook h =>
    simp only [plainProcessCall]
    split
    · exact .refl _
    · exact calm_change fun _ _ => calm_removeHook
  | setDoUndump b => exact calm_effect fun _ => calm_setStartupFlag fun _ => rfl
  | setEarlyTaint b => exact calm_effect fun _ => calm_setStartupFlag fun _ => rfl
  | forceDoUndump b => exact .of_modifyProcess fun _ => rfl
  | setShPath text => exact calm_change fun _ _ => calm_setShPath
  | setProgramName text => exact calm_change fun _ _ => calm_setProgramName
  | increment op => exact calm_change fun _ _ => calm_changeOpRefs
  | decrement op => exact calm_change fun _ _ => calm_changeOpRefs
  | recordAlloc n => exact calm_effect fun _ => calm_changeAllocStats
  | recordFree n => exact calm_effect fun _ => calm_changeAllocStats
  | _ => exact .refl _

/-! ## Calls on what is in hand -/

theorem calm_onInstance (s : Session) (id : InstanceId) (f : InstanceVars → Answer × InstanceVars) :
    Calm s.world (s.onInstance id f).2.world := by
  unfold onInstance
  split
  · exact .refl _
  · exact .of_modifyInstance fun _ => rfl

theorem calm_onThread (s : Session) (t : ThreadId) (storage : StorageId)
    (f : ThreadVars → Answer × ThreadVars) : Calm s.world (s.onThread t storage f).2.world := by
  unfold onThread
  split
  · exact .refl _
  · next st _ => exact calm_modifyThreadVars s.world t storage fun _ => (f st.vars).2

/-- The change is made of the process as it is, so what it keeps is kept. -/
theorem calm_onProcess (s : Session) (tok : Token) (f : Process → Answer × Process)
    (hf : ∀ p, (f p).2.standing = p.standing) : Calm s.world (s.onProcess tok f).2.world := by
  unfold onProcess
  split
  · exact .refl _
  · next p hp =>
    refine ⟨fun _ => rfl, fun tok' => ?_, fun _ _ => rfl, fun _ _ => rfl, fun _ => rfl, rfl, rfl⟩
    simp only [modifyProcess, world_withWorld, get?_modifyProcess]
    split
    · next h =>
      rw [h, hp]
      exact congrArg some (hf p)
    · rfl

theorem calm_setTextAt (s : Session) (text : String) (place : TextPlace) :
    Calm s.world (s.setTextAt text place).world := by
  cases place with
  | shPath tok => exact .of_modifyProcess fun _ => rfl
  | programName tok => exact .of_modifyProcess fun _ => rfl
  | cell c => exact .refl _

theorem calm_instanceCall (s : Session) (id : InstanceId) (c : FocusCall) :
    Calm s.world (s.instanceCall id c).2.world := by
  cases c <;> first | exact .refl _ | exact calm_onInstance _ _ _

theorem calm_threadCall (s : Session) (t : ThreadId) (storage : StorageId) (c : FocusCall) :
    Calm s.world (s.threadCall t storage c).2.world := by
  cases c <;> first | exact .refl _ | exact calm_onThread _ _ _ _

theorem calm_textCall (s : Session) (place : TextPlace) (c : FocusCall) :
    Calm s.world (s.textCall place c).2.world := by
  cases c <;> first | exact .refl _ | exact calm_setTextAt _ _ _

/-- What is done with a registry in hand is calm, unless it changes the registry. -/
theorem calm_registryCall {c : FocusCall} (hedit : c.editsRegistry = false) :
    Calm s.world (s.registryCall ctx tok c).2.world := by
  cases c with
  | insertInstance i => cases hedit
  | removeInstance i => cases hedit
  | findInstance i =>
    simp only [registryCall]
    split
    · exact .refl _
    · exact calm_onProcess _ _ _ fun _ => rfl
  | _ => exact .refl _

theorem calm_hooksCall (s : Session) (tok : Token) (c : FocusCall) :
    Calm s.world (s.hooksCall tok c).2.world := by
  cases c with
  | removeHook h =>
    simp only [hooksCall]
    split
    · exact .refl _
    · exact calm_onProcess _ _ _ fun _ => rfl
  | _ => exact .refl _

theorem calm_referencesCall (s : Session) (tok : Token) (c : FocusCall) :
    Calm s.world (s.referencesCall tok c).2.world := by
  cases c <;> first | exact .refl _ | exact calm_onProcess _ _ _ fun _ => rfl

theorem calm_allocCall (s : Session) (tok : Token) (c : FocusCall) :
    Calm s.world (s.allocCall tok c).2.world := by
  cases c <;> first | exact .refl _ | exact calm_onProcess _ _ _ fun _ => rfl

/-- All that is done in a closure is calm, but for changes of a registry. -/
theorem calm_focusCall {c : FocusCall} (hedit : c.editsRegistry = false) :
    Calm s.world (s.focusCall ctx c).2.world := by
  unfold focusCall
  split
  · exact .refl _
  · split
    · exact calm_instanceCall _ _ _
    · exact calm_threadCall _ _ _ _
    · exact calm_textCall _ _ _
    · exact calm_registryCall hedit
    · exact calm_hooksCall _ _ _
    · exact calm_referencesCall _ _ _
    · exact calm_allocCall _ _ _
    · exact .refl _

/-! ## Other calls -/

theorem calm_cellCall (s : Session) (t : ThreadId) (name : Name) (id : CellId) (cell : LockedCell)
    (c : CellCall) : Calm s.world (s.cellCall t name id cell c).2.world := by
  cases c with
  | write v =>
    simp only [cellCall]
    split
    · exact .refl _
    · split <;> exact .refl _
  | read =>
    simp only [cellCall]
    split <;> exact .refl _
  | _ => exact .refl _

theorem calm_foreignCall {t : ThreadId} {c : ForeignCall} (hstart : c ≠ .start) :
    Calm s.world (s.foreignCall t c).2.world := by
  cases c with
  | start => exact absurd rfl hstart
  | setProgramName bytes? =>
    simp only [foreignCall, foreignSetProgramName]
    split
    · split
      · next h => exact calm_setProgramName h
      · exact .refl _
    · exact .refl _
  | _ => exact .refl _

/-- Calls without an operation are calm, but for those that start a process, end a thread or change
a registry. -/
theorem calm_plainCall {c : Call} (hstart : c.startsProcess = false) (hend : c.endsThread = false)
    (hedit : c.editsRegistry = false) : Calm s.world (s.plainCall ctx c).2.world := by
  cases c with
  | start p config? => cases hstart
  | endThread name => cases hend
  | focus c => exact calm_focusCall hedit
  | foreign c =>
    refine calm_foreignCall ?_
    rintro rfl
    cases hstart
  | cell name c =>
    simp only [plainCall]
    split
    · exact calm_cellCall _ _ _ _ _ _
    · exact .refl _
  | keepInstalled p =>
    simp only [plainCall, keepInstalled]
    split <;> exact .refl _
  | _ => exact .refl _

/-- To register a hook is calm, whether it succeeds or not. -/
theorem calm_registerHook (s : Session) (ctx : Context) (r : HookRequest) (steps : List Step) :
    Calm s.world (s.registerHook ctx r steps).2.world := by
  unfold registerHook
  dsimp only [addCallback]
  split
  · split
    · exact .refl _
    · split
      · exact .refl _
      · next h =>
        rw [world_keepHook]
        exact calm_addHook h
  · split
    · split
      · exact .refl _
      · rw [world_keepHook]
        exact .of_modifyProcess fun _ => rfl
    · exact .refl _

end Session

end TieredState
