import TieredState.Proofs.Invariant
import TieredState.Proofs.Turn

/-!
# What calls leave alone

Calm changes leave alone what the registries and the bindings depend on. Two more things stay as they
are in most steps. One is what threads keep, down to the variables in their storages and the locks
that they hold. The other is hooks: only a step that registers a hook adds to those that there are.

* `Quiet` — no hook was added, and the code of hooks is what it was. Everything that a step does is
  quiet, but for the registration and the call of hooks.
* `Steady` — the change is quiet, and every thread keeps what it kept. `Touches` lists the calls that
  are not steady (`touches_served`).
-/

namespace TieredState

namespace ProcessCall

/-- The call may change the bindings of its thread. -/
def touchesThread : ProcessCall → Bool
  | bind _ _ | release | shutdown => true
  | _ => false

end ProcessCall

namespace FocusCall

/-- The call may change the variables of a binding in hand. -/
def touchesThread : FocusCall → Bool
  | setThread _ | bump => true
  | _ => false

end FocusCall

namespace Call

/-- The call may change what a thread keeps. -/
def touchesThread : Call → Bool
  | process _ c => c.touchesThread
  | focus c => c.touchesThread
  | endThread _ => true
  | _ => false

end Call

namespace World

variable {w w' w'' : World} {t : ThreadId} {tok : Token}

/-! ## Hooks of processes -/

/-- Hooks were at most removed, and a process that is new has none. -/
def HooksKept (w w' : World) : Prop :=
  ∀ tok p', w'.processes.get? tok = some p' → p'.hooks = {} ∨
    ∃ p, w.processes.get? tok = some p ∧ p'.hooks.nextId = p.hooks.nextId ∧
      ∀ e, (p'.hooks.list e).Sublist (p.hooks.list e)

namespace HooksKept

/-- Processes may go. -/
theorem of_sub (h : ∀ tok p, w'.processes.get? tok = some p → w.processes.get? tok = some p) :
    HooksKept w w' :=
  fun tok p hp => .inr ⟨p, h tok p hp, rfl, fun _ => .refl _⟩

theorem refl (w : World) : HooksKept w w := of_sub fun _ _ => id

theorem of_eq (h : w'.processes = w.processes) : HooksKept w w' :=
  of_sub fun _ _ hp => h ▸ hp

/-- Two changes that keep hooks do so one after the other. -/
theorem trans (h : HooksKept w w') (h' : HooksKept w' w'') : HooksKept w w'' := by
  intro tok p'' hp''
  rcases h' tok p'' hp'' with hnew | ⟨p', hp', hnext', hsub'⟩
  · exact .inl hnew
  · rcases h tok p' hp' with hnew | ⟨p, hp, hnext, hsub⟩
    · -- the process had no hooks before, so it has none now, and its counter is where it was
      refine .inl ?_
      have hnone : ∀ e, p''.hooks.list e = [] := by
        intro e
        have hempty : p'.hooks.list e = [] := by
          rw [hnew]
          cases e <;> rfl
        exact List.sublist_nil.1 (hempty ▸ hsub' e)
      have hcreated : p''.hooks.created = [] := hnone .created
      have hdestroyed : p''.hooks.destroyed = [] := hnone .destroyed
      have hcounter : p''.hooks.nextId = 0 := by
        rw [hnext', hnew]
      calc p''.hooks = ⟨p''.hooks.created, p''.hooks.destroyed, p''.hooks.nextId⟩ := rfl
        _ = {} := by rw [hcreated, hdestroyed, hcounter]
    · exact .inr ⟨p, hp, hnext'.trans hnext, fun e => (hsub' e).trans (hsub e)⟩

/-- A change of one process keeps hooks if it draws no identity for one and at most removes some. -/
theorem of_modifyProcess {f : Process → Process}
    (hnext : ∀ p, w.processes.get? tok = some p → (f p).hooks.nextId = p.hooks.nextId)
    (hsub : ∀ p, w.processes.get? tok = some p →
      ∀ e, ((f p).hooks.list e).Sublist (p.hooks.list e)) :
    HooksKept w (w.modifyProcess tok f) := by
  intro tok' p' hp'
  rcases (get?_modifyProcess_eq_some _ _ _).1 hp' with ⟨rfl, p, hp, rfl⟩ | ⟨-, hp⟩
  · exact .inr ⟨p, hp, hnext p hp, hsub p hp⟩
  · exact .inr ⟨p', hp, rfl, fun _ => .refl _⟩

/-- A change of a process that leaves its hooks alone. -/
theorem of_same {f : Process → Process} (h : ∀ p, (f p).hooks = p.hooks) :
    HooksKept w (w.modifyProcess tok f) := by
  refine of_modifyProcess (fun p _ => ?_) (fun p _ e => ?_)
  · rw [h]
  · rw [h]

theorem start (w : World) (c : Config) : HooksKept w (w.start c).2 := by
  intro tok p hp
  rw [get?_start] at hp
  split at hp
  · obtain rfl := Option.some.inj hp
    exact .inl rfl
  · exact .inr ⟨p, hp, rfl, fun _ => .refl _⟩

theorem enroll (w : World) (t : ThreadId) (tok : Token) (parent? : Option InstanceId) :
    HooksKept w (w.enroll t tok parent?).2 := by
  rcases enroll_cases w t tok parent? with ⟨e, heq⟩ | ⟨e, heq⟩ | ⟨p, -, -, heq⟩ <;> rw [heq]
  · exact refl w
  · exact refl w
  · have hregister : HooksKept w.draw (w.draw.modifyProcess tok (·.register ⟨w.nextInstance⟩)) :=
      of_same fun _ => rfl
    exact hregister

theorem withdraw {id : InstanceId} (h : w.withdraw t tok id = .ok w') : HooksKept w w' := by
  obtain ⟨p, -, -, -, rfl⟩ := withdraw_ok h
  exact of_same fun _ => rfl

theorem beginShutdown {ids : List InstanceId} (h : w.beginShutdown t tok = .ok (ids, w')) :
    HooksKept w w' := by
  obtain ⟨p, -, -, rfl⟩ := beginShutdown_ok h
  exact of_same fun _ => rfl

theorem releaseKey (w : World) (t : ThreadId) (tok : Token) : HooksKept w (w.releaseKey t tok) := by
  have hrelease : HooksKept w (w.modifyProcess tok fun p => { p with released := true }) :=
    of_same fun _ => rfl
  exact hrelease

theorem tearDown (w : World) (t : ThreadId) (tok : Token) (id : InstanceId) :
    HooksKept w (w.tearDown t tok id) := of_eq (processes_tearDown w t tok id)

end HooksKept

/-! ## Operations on a process -/

/-- A process is asked for, a lock is checked, and then the process is changed. -/
theorem guarded_ok {α : Type} {x : Except AccessError Process} {y : Except AccessError Unit}
    {a : α} (f : Process → α × (Process → Process))
    (h : (do
      let p ← x
      y
      return ((f p).1, w.modifyProcess tok (f p).2)) = .ok (a, w')) :
    ∃ p, x = .ok p ∧ a = (f p).1 ∧ w' = w.modifyProcess tok (f p).2 := by
  obtain ⟨p, hp, h⟩ := bind_eq_ok.1 h
  obtain ⟨_, -, h⟩ := bind_eq_ok.1 h
  obtain ⟨ha, hw⟩ := Prod.mk.inj (Except.ok.inj h)
  exact ⟨p, hp, ha.symm, hw.symm⟩

/-- A hook is registered in the table of a process that is live, under the next identity of this
table. -/
theorem addHook_ok {e : HookEvent} {c : CallbackId} {id : HookId}
    (h : w.addHook t tok e c = .ok (id, w')) : ∃ p, w.live tok = .ok p ∧
      id = (p.hooks.register e c).1 ∧
      w' = w.modifyProcess tok fun q => { q with hooks := (p.hooks.register e c).2 } :=
  guarded_ok (fun p => ((p.hooks.register e c).1, fun q =>
    { q with hooks := (p.hooks.register e c).2 })) h

/-- A hook is looked for in the table of one process only, which has to be live. -/
theorem removeHook_ok {id : HookId} {found : Bool} (h : w.removeHook t tok id = .ok (found, w')) :
    ∃ p, w.live tok = .ok p ∧ found = (p.hooks.remove id).1 ∧
      w' = w.modifyProcess tok fun q => { q with hooks := (p.hooks.remove id).2 } :=
  guarded_ok (fun p => ((p.hooks.remove id).1, fun q => { q with hooks := (p.hooks.remove id).2 })) h

end World

/-- What is left when a hook is removed stands in the same order as before. -/
theorem Hooks.list_remove (h : Hooks) (id : HookId) (e : HookEvent) :
    ((h.remove id).2.list e).Sublist (h.list e) := by
  cases e <;> exact List.filter_sublist

namespace Session

open World

variable {s s' s'' : Session} {ctx : Context} {t : ThreadId} {tok : Token}

/-- No hook was added, and the code of hooks is what it was. -/
structure Quiet (s s' : Session) : Prop where
  hooks : HooksKept s.world s'.world
  callbacks : s'.callbacks = s.callbacks
  nextCallback : s'.nextCallback = s.nextCallback

/-- The change is quiet, and every thread keeps what it kept. -/
structure Steady (s s' : Session) : Prop extends Quiet s s' where
  threads : ∀ t, s'.world.thread t = s.world.thread t

theorem Quiet.refl (s : Session) : Quiet s s := ⟨.refl _, rfl, rfl⟩

theorem Quiet.trans (h : Quiet s s') (h' : Quiet s' s'') : Quiet s s'' where
  hooks := h.hooks.trans h'.hooks
  callbacks := h'.callbacks.trans h.callbacks
  nextCallback := h'.nextCallback.trans h.nextCallback

/-- A session is quiet while its world keeps hooks. -/
theorem Quiet.of_world {w : World} (h : HooksKept s.world w) : Quiet s (s.withWorld w) :=
  ⟨h, rfl, rfl⟩

namespace Steady

theorem refl (s : Session) : Steady s s := ⟨.refl s, fun _ => rfl⟩

/-- A new world is a steady change if it keeps hooks and all that threads keep. -/
theorem of_world {w : World} (h : HooksKept s.world w)
    (ht : ∀ t, w.thread t = s.world.thread t) : Steady s (s.withWorld w) :=
  ⟨.of_world h, ht⟩

/-- Names and cells may change. -/
theorem of_parts (hworld : s'.world = s.world) (hcallbacks : s'.callbacks = s.callbacks)
    (hnext : s'.nextCallback = s.nextCallback) : Steady s s' :=
  ⟨⟨.of_eq (hworld ▸ rfl), hcallbacks, hnext⟩, fun _ => hworld ▸ rfl⟩

/-- A change of a process that leaves its hooks alone. -/
theorem of_process {f : Process → Process} (h : ∀ p, (f p).hooks = p.hooks) :
    Steady s (s.withWorld (s.world.modifyProcess tok f)) :=
  of_world (.of_same h) fun _ => rfl

theorem touch (s : Session) (t : ThreadId) : Steady s (s.touch t) := by
  refine of_world (.of_eq rfl) fun t' => ?_
  rw [thread_setThread]
  split
  · next heq => rw [heq]
  · rfl

theorem keepInstance (s : Session) (as? : Option Name) (id : InstanceId) :
    Steady s (s.keepInstance as? id) := by
  cases as? <;> exact of_parts rfl rfl rfl

theorem keepHandle (s : Session) (t : ThreadId) (as? : Option Name) (h : Handle) :
    Steady s (s.keepHandle t as? h) := by
  cases as? <;> exact of_parts rfl rfl rfl

/-- To keep an instance that was asked for is steady, whether there was one or not. -/
theorem keepAnswer (s : Session) (as? : Option Name) (r : Except AccessError (Option InstanceId)) :
    Steady s (s.keepAnswer as? r).2 := by
  cases r with
  | error e => exact refl s
  | ok id? =>
    cases id? with
    | none => exact refl s
    | some id => exact keepInstance s as? id

/-- A change of the world is steady, with what it answers, if it is so whenever it succeeds. -/
theorem change {α : Type} {f : α → Answer} {r : Except AccessError (α × World)}
    (h : ∀ a w, r = .ok (a, w) → Steady s (s.withWorld w)) : Steady s (s.change f r).2 := by
  cases r with
  | error e => exact refl s
  | ok p => exact h p.1 p.2 rfl

/-- A call that asks for the process and for a lock, and then changes what is no hook. -/
theorem guarded {α : Type} {x : Except AccessError Process} {y : Except AccessError Unit}
    {g : α → Answer} (f : Process → α × (Process → Process))
    (hf : ∀ p q, ((f p).2 q).hooks = q.hooks) :
    Steady s (s.change g (do
      let p ← x
      y
      return ((f p).1, s.world.modifyProcess tok (f p).2))).2 := by
  refine change fun a w h => ?_
  obtain ⟨p, -, -, rfl⟩ := guarded_ok f h
  exact of_process (hf p)

/-- A change of the world without an answer is steady if it is so whenever it succeeds. -/
theorem effect {r : Except AccessError World} (h : ∀ w, r = .ok w → Steady s (s.withWorld w)) :
    Steady s (s.effect r).2 := by
  cases r with
  | error e => exact refl s
  | ok w => exact h w rfl

/-- To set a flag of startup is steady. -/
theorem startupFlag {field : String} {f : Process → Process} (hf : ∀ p, (f p).hooks = p.hooks) :
    Steady s (s.effect (s.world.setStartupFlag t tok field f)).2 := by
  refine effect fun w h => ?_
  obtain ⟨_, -, h⟩ := bind_eq_ok.1 h
  dsimp only at h
  split at h
  · rw [← Except.ok.inj h]
    exact of_process hf
  · cases h
  · cases h

/-- To count an allocation is steady. -/
theorem allocStats {f : AllocStats → AllocStats} :
    Steady s (s.effect (s.world.changeAllocStats t tok f)).2 := by
  refine effect fun w h => ?_
  obtain ⟨p, -, h⟩ := bind_eq_ok.1 h
  obtain ⟨_, -, h⟩ := bind_eq_ok.1 h
  rw [← Except.ok.inj h]
  exact of_process fun _ => rfl

/-! ## Calls on a process -/

/-- A call to a process that leaves bindings alone is steady. -/
theorem plainProcessCall {p : Process} {c : ProcessCall} (hc : c.touchesThread = false) :
    Steady s (s.plainProcessCall ctx tok p c).2 := by
  cases c with
  | bind i as? => cases hc
  | release => cases hc
  | shutdown => cases hc
  | install =>
    simp only [Session.plainProcessCall, install]
    split <;> exact of_world (.of_eq rfl) fun _ => rfl
  | find i as? =>
    simp only [Session.plainProcessCall]
    split
    · exact refl s
    · exact keepAnswer s as? _
  | initial as? => exact keepAnswer s as? _
  | current as? =>
    simp only [Session.plainProcessCall]
    split
    · exact keepInstance s as? _
    · exact refl s
  | currentThread as? =>
    simp only [Session.plainProcessCall]
    split
    · exact keepHandle s ctx.thread as? _
    · exact refl s
  | removeHook h =>
    simp only [Session.plainProcessCall]
    split
    · exact refl s
    · refine change fun found w h => ?_
      -- the one call of these that changes hooks, and it only removes
      obtain ⟨q, hq, -, rfl⟩ := removeHook_ok h
      obtain ⟨hget, -⟩ := live_ok.1 hq
      refine of_world (.of_modifyProcess ?_ ?_) fun _ => rfl
      · intro q' hq'
        rw [hget] at hq'
        rw [← Option.some.inj hq']
        rfl
      · intro q' hq' e
        rw [hget] at hq'
        rw [← Option.some.inj hq']
        exact Hooks.list_remove _ _ e
  | setDoUndump b => exact startupFlag fun _ => rfl
  | setEarlyTaint b => exact startupFlag fun _ => rfl
  | forceDoUndump b => exact of_process fun _ => rfl
  | setShPath text =>
    exact guarded (fun p => (p.shPath, fun q => { q with shPath := text })) fun _ _ => rfl
  | setProgramName text =>
    exact guarded (fun p => (p.programName, fun q => { q with programName := text })) fun _ _ => rfl
  | increment op =>
    exact guarded (fun p => ((p.opRefs.increment op).1, fun q =>
      { q with opRefs := (p.opRefs.increment op).2 })) fun _ _ => rfl
  | decrement op =>
    exact guarded (fun p => ((p.opRefs.decrement op).1, fun q =>
      { q with opRefs := (p.opRefs.decrement op).2 })) fun _ _ => rfl
  | recordAlloc n => exact allocStats
  | recordFree n => exact allocStats
  | _ => exact refl s

/-! ## Calls on what is in hand -/

theorem onInstance (s : Session) (id : InstanceId) (f : InstanceVars → Answer × InstanceVars) :
    Steady s (s.onInstance id f).2 := by
  unfold Session.onInstance
  split
  · exact refl s
  · exact of_world (.of_eq rfl) fun _ => rfl

/-- The change is made of the process as it is. -/
theorem onProcess {f : Process → Answer × Process}
    (hnext : ∀ p, (f p).2.hooks.nextId = p.hooks.nextId)
    (hsub : ∀ p e, ((f p).2.hooks.list e).Sublist (p.hooks.list e)) :
    Steady s (s.onProcess tok f).2 := by
  unfold Session.onProcess
  split
  · exact refl s
  · next p hp =>
    refine of_world (.of_modifyProcess ?_ ?_) fun _ => rfl
    · intro q hq
      rw [hp] at hq
      exact Option.some.inj hq ▸ hnext p
    · intro q hq e
      rw [hp] at hq
      exact Option.some.inj hq ▸ hsub p e

/-- The change leaves the hooks alone. -/
theorem onProcess_same {f : Process → Answer × Process} (hf : ∀ p, (f p).2.hooks = p.hooks) :
    Steady s (s.onProcess tok f).2 :=
  onProcess (fun p => by rw [hf]) fun p e => by rw [hf]

/-- What is done to a registry in hand is steady. -/
theorem registryCall (s : Session) (ctx : Context) (tok : Token) (c : FocusCall) :
    Steady s (s.registryCall ctx tok c).2 := by
  cases c with
  | insertInstance i =>
    simp only [Session.registryCall]
    split
    · exact refl s
    · exact onProcess_same fun _ => rfl
  | removeInstance i =>
    simp only [Session.registryCall]
    split
    · exact refl s
    · exact onProcess_same fun _ => rfl
  | findInstance i =>
    simp only [Session.registryCall]
    split
    · exact refl s
    · exact onProcess_same fun _ => rfl
  | _ => exact refl s

/-- Hooks that are in hand can only be removed, which is steady. -/
theorem hooksCall (s : Session) (tok : Token) (c : FocusCall) : Steady s (s.hooksCall tok c).2 := by
  cases c with
  | removeHook h =>
    simp only [Session.hooksCall]
    split
    · exact refl s
    · exact onProcess (fun _ => rfl) fun p e => Hooks.list_remove _ _ e
  | _ => exact refl s

/-- What is done to a text in hand is steady. -/
theorem textCall (s : Session) (place : TextPlace) (c : FocusCall) :
    Steady s (s.textCall place c).2 := by
  have hset : ∀ text, Steady s (s.setTextAt text place) := by
    intro text
    cases place with
    | shPath tok => exact of_process fun _ => rfl
    | programName tok => exact of_process fun _ => rfl
    | cell c => exact of_parts rfl rfl rfl
  cases c <;> first | exact refl s | exact hset _

/-- What is done to anything in hand but the variables of a binding is steady. -/
theorem focusCall {c : FocusCall} (hc : c.touchesThread = false) :
    Steady s (s.focusCall ctx c).2 := by
  unfold Session.focusCall
  split
  · exact refl s
  · split
    · cases c <;> first | exact refl s | exact onInstance s _ _
    · cases c <;> first | exact refl s | cases hc
    · exact textCall s _ c
    · exact registryCall s ctx _ c
    · exact hooksCall s _ c
    · cases c <;> first | exact refl s | exact onProcess_same fun _ => rfl
    · cases c <;> first | exact refl s | exact onProcess_same fun _ => rfl
    · exact refl s

/-! ## Other calls -/

/-- To start a process is steady. -/
theorem startProcess (s : Session) (p : Name) (config? : Option String) :
    Steady s (s.startProcess p config?).2 := by
  unfold Session.startProcess
  split
  · exact refl s
  · next c _ => exact ⟨⟨.start s.world c, rfl, rfl⟩, fun _ => rfl⟩

/-- Calls of foreign code are steady. -/
theorem foreignCall (s : Session) (t : ThreadId) (c : ForeignCall) :
    Steady s (s.foreignCall t c).2 := by
  cases c with
  | start =>
    -- a process is started only where none is installed
    simp only [Session.foreignCall, foreignStart]
    split
    · exact refl s
    · split
      · exact refl s
      · next c _ _ =>
        have hinstall : HooksKept (s.world.start c).2
            ((s.world.start c).2.install (s.world.start c).1).2 := by
          unfold install
          split <;> exact .of_eq rfl
        refine of_world ((HooksKept.start s.world c).trans hinstall) fun t => ?_
        unfold install
        split <;> rfl
  | setProgramName bytes? =>
    simp only [Session.foreignCall, foreignSetProgramName]
    split
    · split
      · next h =>
        obtain ⟨p, -, -, rfl⟩ := guarded_ok
          (fun p => (p.programName, fun q => { q with programName := _ })) h
        exact of_process fun _ => rfl
      · exact refl s
    · exact refl s
  | _ => exact refl s

/-- What is done to a cell is steady. -/
theorem cellCall (s : Session) (t : ThreadId) (name : Name) (id : CellId) (cell : LockedCell)
    (c : CellCall) : Steady s (s.cellCall t name id cell c).2 := by
  cases c with
  | write v =>
    simp only [Session.cellCall]
    split
    · exact of_parts rfl rfl rfl
    · split
      · exact of_parts rfl rfl rfl
      · exact refl s
  | read =>
    simp only [Session.cellCall]
    split <;> exact refl s
  | _ => exact of_parts rfl rfl rfl

/-- A call that is done at once is steady if it leaves alone what threads keep. -/
theorem plainCall {c : Call} (hc : c.touchesThread = false) : Steady s (s.plainCall ctx c).2 := by
  cases c with
  | start p config? => exact startProcess s p config?
  | endThread name => cases hc
  | focus c => exact focusCall hc
  | foreign c => exact foreignCall s ctx.thread c
  | cell name c =>
    simp only [Session.plainCall]
    split
    · exact cellCall s _ _ _ _ c
    · exact refl s
  | keepInstalled p =>
    simp only [Session.plainCall, keepInstalled]
    split
    · exact of_parts rfl rfl rfl
    · exact refl s
  | newCell name kind lock v => exact of_parts rfl rfl rfl
  | dropProcess p => exact of_parts rfl rfl rfl
  | dropInstance i => exact of_parts rfl rfl rfl
  | dropHandle h => exact of_parts rfl rfl rfl
  | _ => exact refl s

/-! ## Operations that run hooks -/

/-- What an operation does before its hooks run concerns a registry only. -/
theorem begins {d : Dispatch} (h : s.Begins t tok d s') : Steady s s' := by
  cases h with
  | @create parent? id w as? henroll =>
    obtain ⟨-, rfl, -⟩ := mayTake_of_enroll henroll
    have hkept := HooksKept.enroll s.world t tok parent?
    rw [henroll] at hkept
    exact of_world hkept fun _ => rfl
  | destroy hwithdraw =>
    have hkept := HooksKept.withdraw hwithdraw
    obtain ⟨p, -, -, -, rfl⟩ := withdraw_ok hwithdraw
    exact of_world hkept fun _ => rfl
  | shutdown hbegin =>
    have hkept := HooksKept.beginShutdown hbegin
    obtain ⟨p, -, -, rfl⟩ := beginShutdown_ok hbegin
    exact of_world hkept fun _ => rfl

end Steady

/-! ## What a call does to threads -/

/-- What a call that is done at once does to what threads keep, steady changes apart. -/
inductive Touches (s : Session) (ctx : Context) : Call → Session → Prop
  | steady {c : Call} {s' : Session} (h : Steady s s') : Touches s ctx c s'
  | vars {c : FocusCall} {t : ThreadId} {storage : StorageId} (f : ThreadVars → ThreadVars)
    (hfocus : ctx.focus = .threadVars t storage) :
    Touches s ctx (.focus c) (s.withWorld (s.world.modifyThreadVars t storage f))
  | endThread {name : String} {s' : Session}
    (h : Steady (s.withWorld (s.world.withoutThread (.worker name))) s') :
    Touches s ctx (.endThread name) s'
  | bind {p i : Name} {as? : Option Name} {tok : Token} {id : InstanceId} {s' : Session}
    (hproc : s.process p = .ok tok) (hkeep : s.instanceToKeep ctx (some tok) i = .ok id)
    (hworld : s'.world = (s.world.bind ctx.thread tok id).2)
    (h : Steady (s.withWorld (s.world.bind ctx.thread tok id).2) s') :
    Touches s ctx (.process p (.bind i as?)) s'
  | release {p : Name} {tok : Token} {id? : Option InstanceId} {w : World}
    (hproc : s.process p = .ok tok) (h : s.world.release ctx.thread tok = .ok (id?, w)) :
    Touches s ctx (.process p .release) (s.withWorld w)
  | shutdown {p : Name} {tok : Token} {w : World} (hproc : s.process p = .ok tok)
    (h : s.world.beginShutdown ctx.thread tok = .ok ([], w)) :
    Touches s ctx (.process p .shutdown) (s.withWorld (w.releaseKey ctx.thread tok))

/-- A call to a process changes the binding of its thread, or is steady. -/
theorem touches_plainProcessCall {p : Name} {q : Process} (hproc : s.process p = .ok tok)
    (c : ProcessCall) : s.Touches ctx (.process p c) (s.plainProcessCall ctx tok q c).2 := by
  cases htouch : c.touchesThread with
  | false => exact .steady (.plainProcessCall htouch)
  | true =>
    cases c with
    | bind i as? =>
      simp only [plainProcessCall]
      split
      · exact .steady (.refl s)
      · next id hkeep =>
        split
        · exact .bind hproc hkeep (world_keepHandle _ _ _ _) (.keepHandle _ _ _ _)
        · exact .bind hproc hkeep rfl (.refl _)
    | release =>
      simp only [plainProcessCall, change]
      split
      · next hrelease => exact .release hproc hrelease
      · exact .steady (.refl s)
    | shutdown => exact .steady (.refl s)
    | _ => cases htouch

/-- A call without an operation does one of three things to what threads keep, or is steady. -/
theorem touches_plainCall (c : Call) : s.Touches ctx c (s.plainCall ctx c).2 := by
  cases htouch : c.touchesThread with
  | false => exact .steady (.plainCall htouch)
  | true =>
    cases c with
    | process p c => exact .steady (.refl s)
    | endThread name => exact .endThread (.of_parts rfl rfl rfl)
    | focus c =>
      have honThread : ∀ t storage f, ctx.focus = .threadVars t storage →
          s.Touches ctx (.focus c) (s.onThread t storage f).2 := by
        intro t storage f hfocus
        unfold onThread
        split
        · exact .steady (.refl s)
        · exact .vars _ hfocus
      simp only [plainCall, focusCall]
      split
      · exact .steady (.refl s)
      · split
        · cases c <;> first | exact .steady (.refl s) | exact .steady (.onInstance s _ _)
        · next hfocus =>
          cases c <;> first | exact .steady (.refl s) | exact honThread _ _ _ hfocus
        · exact .steady (.textCall s _ _)
        · exact .steady (.registryCall s ctx _ _)
        · exact .steady (.hooksCall s _ _)
        all_goals cases c <;> first | exact .steady (.refl s) | cases htouch
    | _ => cases htouch

/-- A call that is done at once touches what threads keep in one of these ways. -/
theorem touches_served {c : Call} {o : Outcome} (h : s.Served ctx c o s') : s.Touches ctx c s' := by
  cases h with
  | plain _ => exact touches_plainCall _
  | process hproc _ _ => exact touches_plainProcessCall hproc _
  | refused f => exact .steady (.refl s)
  | drawn _ _ => exact .steady (.of_world (.refl _) fun _ => rfl)
  | shutdown hproc hbegin => exact .shutdown hproc hbegin

/-! ## The registration of a hook -/

/-- A registration is refused, or adds the code of the hook and the hook, both under new
identities. -/
theorem registerHook_cases (s : Session) (ctx : Context) (r : HookRequest) (steps : List Step) :
    (s.registerHook ctx r steps).2 = s ∨
    ∃ tok p, s.world.processes.get? tok = some p ∧
      (s.registerHook ctx r steps).2.world = s.world.modifyProcess tok (fun q =>
        { q with hooks := (p.hooks.register r.event ⟨s.nextCallback⟩).2 }) ∧
      (s.registerHook ctx r steps).2.callbacks = s.callbacks.insert ⟨s.nextCallback⟩
        { tag := r.tag, limit := r.limit, body := steps } ∧
      (s.registerHook ctx r steps).2.nextCallback = s.nextCallback + 1 := by
  -- keeping the identity of a hook under a name adds no code
  have hkeep : ∀ (s : Session) as? id, (s.keepHook as? id).callbacks = s.callbacks ∧
      (s.keepHook as? id).nextCallback = s.nextCallback := by
    intro s as? id
    cases as? <;> exact ⟨rfl, rfl⟩
  unfold registerHook
  dsimp only [addCallback]
  split
  · split
    · exact .inl rfl
    · next tok _ =>
      split
      · exact .inl rfl
      · next h =>
        obtain ⟨p, hp, -, rfl⟩ := addHook_ok h
        refine .inr ⟨tok, p, (live_ok.1 hp).1, ?_, (hkeep _ _ _).1, (hkeep _ _ _).2⟩
        rw [world_keepHook]
        rfl
  · split
    · next tok _ =>
      split
      · exact .inl rfl
      · next p hp =>
        refine .inr ⟨tok, p, hp, ?_, (hkeep _ _ _).1, (hkeep _ _ _).2⟩
        rw [world_keepHook]
        rfl
    · exact .inl rfl

/-! ## Everything that a step does, but for hooks -/

namespace Quiet

/-- What is done to threads and instances does not matter. -/
theorem of_processes {w : World} (h : w.processes = s.world.processes) : Quiet s (s.withWorld w) :=
  .of_world (.of_eq h)

/-- Whatever a call does to what threads keep, it is quiet. -/
theorem touches {c : Call} (h : s.Touches ctx c s') : Quiet s s' := by
  cases h with
  | steady hsteady => exact hsteady.toQuiet
  | vars f hfocus => exact of_processes rfl
  | @endThread name _ hsteady =>
    have hended : Quiet s (s.withWorld (s.world.withoutThread (.worker name))) := of_processes rfl
    exact hended.trans hsteady.toQuiet
  | bind hproc hkeep hworld hsteady =>
    exact (of_processes (local_bind _ _ _ _).processes).trans hsteady.toQuiet
  | release hproc hrelease => exact of_processes (local_release hrelease).processes
  | shutdown hproc hbegin =>
    exact .of_world ((HooksKept.beginShutdown hbegin).trans (.releaseKey _ _ _))

/-- What is torn down when hooks have run is instances and bindings. -/
theorem finishes {d : Dispatch} {p : Progress} (h : s.Finishes d p) : Quiet s p.session := by
  have htear := HooksKept.tearDown s.world d.thread d.process d.target
  cases h with
  | create htask => exact (Steady.keepInstance _ _ _).toQuiet
  | destroy htask | next htask => exact .of_world htear
  | shutdown htask => exact .of_world (htear.trans (.releaseKey _ _ _))

theorem undo (s : Session) (b : Body) : Quiet s (s.undo b) := by
  unfold Session.undo
  split <;> exact of_processes rfl

/-- Unwinding is quiet, as it only gives back. -/
theorem unwind (s : Session) (stack : List Frame) : Quiet s (Machine.unwind s stack).1 :=
  Machine.unwind_induction (P := fun s' _ => Quiet s s') (fun s' b _ h => h.trans (undo s' b))
    (fun _ _ _ _ h => h) (refl s)

theorem entered {steps : List Step} {b : Body} (h : s.Entered ctx steps b s') : Quiet s s' := by
  cases h with
  | @lock l w focus tokens ids htake =>
    obtain ⟨held, -, rfl⟩ := take_ok htake
    exact of_processes rfl
  | storage tokens hborrow => exact of_processes (borrow_ok hborrow).frame.processes
  | attempt => exact refl s

theorem sweep (s : Session) (t : ThreadId) (tokens : List Token) (ids : List InstanceId) :
    Quiet s (s.sweep t tokens ids) :=
  .of_world (.of_sub fun _ _ hp => (get?_of_sweep hp).2)

end Quiet

end Session

/-- The thread that takes a step is there from then on, and keeps what it kept. -/
theorem Machine.thread_opening (m : Machine) (ctx : Context) (t : ThreadId) :
    (m.opening ctx).world.thread t = m.session.world.thread t :=
  (Session.Steady.touch m.session ctx.thread).threads t

end TieredState
