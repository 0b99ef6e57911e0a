import TieredState.Proofs.Steady

/-!
# What a call alters

A call that is done at once alters one thing of the world at most: the process that it operates on,
the variables in hand, what its own thread keeps, or it ends a thread or starts a process. `Alters`
lists what it can be, with the change in full, so that what a call leaves alone can be read off.

* `Session.operand?`, `Session.unhooks?` — the process that a step operates on, and the hook that a
  call removes.
* `alters_served` — every call that is done at once is one of these.
-/

namespace TieredState

/-- A process may be changed by whatever agrees on the process as it is. -/
theorem World.modifyProcess_congr {w : World} {tok : Token} {f g : Process → Process}
    (h : ∀ p, w.processes.get? tok = some p → f p = g p) :
    w.modifyProcess tok f = w.modifyProcess tok g := by
  have htable : w.processes.modify tok f = w.processes.modify tok g := by
    unfold Table.modify
    split
    · next p hp => rw [h p hp]
    · rfl
  unfold modifyProcess
  rw [htable]

namespace Session

open World

/-! ## What a step is about -/

/-- The process that what is in hand belongs to. -/
def inHand? (s : Session) : Focus → Option Token
  | .instanceVars id => (s.world.instances.get? id).map (·.owner)
  | .text (.shPath tok) _ | .text (.programName tok) _ => some tok
  | .registry tok | .hooks tok _ | .references tok | .allocStats tok => some tok
  | _ => none

/-- The process that a call operates on. -/
def callOperand? (s : Session) (ctx : Context) : Call → Option Token
  | .process p _ => s.processes.get? p
  | .focus _ => s.inHand? ctx.focus
  | .foreign _ => s.world.installed?
  | _ => none

/-- The process that a step operates on. -/
def operand? (s : Session) (ctx : Context) : Step → Option Token
  | .call _ c => s.callOperand? ctx c
  | .closure _ (.ofCurrent p) _ | .closure _ (.ofThread p) _ | .closure _ (.ofShared p _) _ =>
    s.processes.get? p
  | .closure _ _ _ => none
  | .register _ r _ =>
    match r.process? with
    | some p => s.processes.get? p
    | none => s.inHand? ctx.focus

/-- The hook that a call removes if it is there, by its identity and its process. A removal that is
refused removes none. -/
def unhooks? (s : Session) (ctx : Context) : Call → Option (Token × HookId)
  | .process p (.removeHook h) =>
    (s.process p).toOption.bind fun tok => (s.hookNamed h).toOption.bind fun id =>
      (s.world.removeHook ctx.thread tok id).toOption.map fun _ => (tok, id)
  | .focus (.removeHook h) =>
    match ctx.focus with
    | .hooks tok true =>
      (s.hookNamed h).toOption.bind fun id => (s.world.processes.get? tok).map fun _ => (tok, id)
    | _ => none
  | _ => none

/-- The process has a hook less, if it had it. -/
def unhooked (id : HookId) (p : Process) : Process := { p with hooks := (p.hooks.remove id).2 }

/-- The world that a call leaves behind. -/
inductive Alters (s : Session) (ctx : Context) : Call → World → Prop
  | same {c : Call} (hkeeps : s.unhooks? ctx c = none) : Alters s ctx c s.world
  /-- The process is changed, but for its hooks. -/
  | edits {c : Call} {tok : Token} (f : Process → Process) (hoperand : s.callOperand? ctx c = some tok)
    (hkeeps : s.unhooks? ctx c = none) (hhooks : ∀ p, (f p).hooks = p.hooks) :
    Alters s ctx c (s.world.modifyProcess tok f)
  | unhooks {c : Call} {tok : Token} {id : HookId} (hoperand : s.callOperand? ctx c = some tok)
    (hunhooks : s.unhooks? ctx c = some (tok, id)) :
    Alters s ctx c (s.world.modifyProcess tok (unhooked id))
  /-- The variables of an instance in hand are changed. -/
  | vars {c : FocusCall} {id : InstanceId} (vars : InstanceVars) (hfocus : ctx.focus = .instanceVars id) :
    Alters s ctx (.focus c) (s.world.modifyInstance id fun i => { i with vars })
  /-- The variables of a binding in hand are changed. -/
  | threadVars {c : FocusCall} {t : ThreadId} {storage : StorageId} (f : ThreadVars → ThreadVars)
    (hfocus : ctx.focus = .threadVars t storage) :
    Alters s ctx (.focus c) (s.world.modifyThreadVars t storage f)
  | ends {name : String} : Alters s ctx (.endThread name) (s.world.withoutThread (.worker name))
  | starts {p : Name} {config? : Option String} (config : Config) :
    Alters s ctx (.start p config?) (s.world.start config).2
  /-- A process is started and installed, since none is. -/
  | startsInstalled (config : Config) (hnone : s.world.installed? = none) :
    Alters s ctx (.foreign .start) ((s.world.start config).2.install (s.world.start config).1).2
  | installs {p : Name} {tok : Token} (hproc : s.process p = .ok tok) :
    Alters s ctx (.process p .install) (s.world.install tok).2
  | binds {p i : Name} {as? : Option Name} {tok : Token} {id : InstanceId}
    (hproc : s.process p = .ok tok) (hkeep : s.instanceToKeep ctx (some tok) i = .ok id) :
    Alters s ctx (.process p (.bind i as?)) (s.world.bind ctx.thread tok id).2
  | releases {p : Name} {tok : Token} {id? : Option InstanceId} {w : World}
    (hproc : s.process p = .ok tok) (hrelease : s.world.release ctx.thread tok = .ok (id?, w)) :
    Alters s ctx (.process p .release) w
  /-- An identity is drawn for a creation that is refused. -/
  | draws {p : Name} {c : ProcessCall} (hc : c.isLifecycle = true) :
    Alters s ctx (.process p c) s.world.draw
  /-- A process without instances is shut down. -/
  | shuts {p : Name} {tok : Token} {w : World} (hproc : s.process p = .ok tok)
    (hbegin : s.world.beginShutdown ctx.thread tok = .ok ([], w)) :
    Alters s ctx (.process p .shutdown) (w.releaseKey ctx.thread tok)

variable {s s' : Session} {ctx : Context} {tok : Token}

/-! ## Calls on a process -/

/-- A process goes by a name if the script has given it to that process. -/
theorem process_eq_ok {p : Name} : s.process p = .ok tok ↔ s.processes.get? p = some tok := by
  unfold process
  cases s.processes.get? p <;> simp

/-- Whoever removes a hook operates on a process that there is. -/
theorem operand_of_unhooks? {c : Call} {id : HookId} (h : s.unhooks? ctx c = some (tok, id)) :
    s.callOperand? ctx c = some tok ∧ ∃ p, s.world.processes.get? tok = some p := by
  unfold unhooks? at h
  split at h
  · next p n =>
    obtain ⟨tok', hproc, h⟩ := Option.bind_eq_some_iff.1 h
    obtain ⟨id', -, h⟩ := Option.bind_eq_some_iff.1 h
    obtain ⟨r, hremove, heq⟩ := Option.map_eq_some_iff.1 h
    obtain ⟨rfl, -⟩ := Prod.mk.inj heq
    rw [toOption_eq_some] at hproc hremove
    obtain ⟨q, hq, -⟩ := removeHook_ok hremove
    exact ⟨process_eq_ok.1 hproc, q, (live_ok.1 hq).1⟩
  · next n =>
    split at h
    · next tok' hfocus =>
      obtain ⟨id', -, h⟩ := Option.bind_eq_some_iff.1 h
      obtain ⟨q, hq, heq⟩ := Option.map_eq_some_iff.1 h
      obtain ⟨rfl, -⟩ := Prod.mk.inj heq
      exact ⟨congrArg s.inHand? hfocus, q, hq⟩
    · cases h
  · cases h

/-- A call on what is in hand removes no hook but of hooks in hand. -/
theorem unhooks?_of_focus {c : FocusCall} (h : ∀ tok, ctx.focus ≠ .hooks tok true) :
    s.unhooks? ctx (.focus c) = none := by
  unfold unhooks?
  split
  · next heq => cases heq
  · split
    · next tok hfocus => exact absurd hfocus (h tok)
    · rfl
  · rfl

namespace Alters

/-- A call whose world is given by what is done under an error. -/
theorem change {α : Type} {c : Call} {f : α → Answer} {r : Except AccessError (α × World)}
    (hkeeps : s.unhooks? ctx c = none) (h : ∀ a w, r = .ok (a, w) → s.Alters ctx c w) :
    s.Alters ctx c (s.change f r).2.world := by
  cases r with
  | error e => exact .same hkeeps
  | ok p => exact h p.1 p.2 rfl

/-- A change of the world without an answer alters it as the call does whenever it succeeds. -/
theorem effect {c : Call} {r : Except AccessError World} (hkeeps : s.unhooks? ctx c = none)
    (h : ∀ w, r = .ok w → s.Alters ctx c w) : s.Alters ctx c (s.effect r).2.world := by
  cases r with
  | error e => exact .same hkeeps
  | ok w => exact h w rfl

/-- A call that asks for the process and for a lock, and then changes what is no hook. -/
theorem guarded {α : Type} {c : Call} {x : Except AccessError Process} {y : Except AccessError Unit}
    {g : α → Answer} (hoperand : s.callOperand? ctx c = some tok) (hkeeps : s.unhooks? ctx c = none)
    (f : Process → α × (Process → Process)) (hf : ∀ p q, ((f p).2 q).hooks = q.hooks) :
    s.Alters ctx c (s.change g (do
      let p ← x
      y
      return ((f p).1, s.world.modifyProcess tok (f p).2))).2.world := by
  refine change hkeeps fun a w h => ?_
  obtain ⟨p, -, -, rfl⟩ := guarded_ok f h
  exact .edits _ hoperand hkeeps (hf p)

/-- To set a flag of startup alters the process and leaves its hooks alone. -/
theorem startupFlag {c : Call} {field : String} {f : Process → Process}
    (hoperand : s.callOperand? ctx c = some tok) (hkeeps : s.unhooks? ctx c = none)
    (hf : ∀ p, (f p).hooks = p.hooks) :
    s.Alters ctx c (s.effect (s.world.setStartupFlag ctx.thread tok field f)).2.world := by
  refine effect hkeeps fun w h => ?_
  obtain ⟨_, -, h⟩ := bind_eq_ok.1 h
  dsimp only at h
  split at h
  · rw [← Except.ok.inj h]
    exact .edits f hoperand hkeeps hf
  · cases h
  · cases h

/-- To count an allocation alters the process and leaves its hooks alone. -/
theorem allocStats {c : Call} {f : AllocStats → AllocStats}
    (hoperand : s.callOperand? ctx c = some tok) (hkeeps : s.unhooks? ctx c = none) :
    s.Alters ctx c (s.effect (s.world.changeAllocStats ctx.thread tok f)).2.world := by
  refine effect hkeeps fun w h => ?_
  obtain ⟨p, -, h⟩ := bind_eq_ok.1 h
  obtain ⟨_, -, h⟩ := bind_eq_ok.1 h
  rw [← Except.ok.inj h]
  exact .edits _ hoperand hkeeps fun _ => rfl

/-- A hook is removed under the hooks' lock, or the removal is refused. -/
theorem removeHook {p h : Name} (hproc : s.process p = .ok tok) (q : Process) :
    s.Alters ctx (.process p (.removeHook h))
      (s.plainProcessCall ctx tok q (.removeHook h)).2.world := by
  simp only [Session.plainProcessCall]
  split
  · next f hname =>
    refine .same ?_
    simp [unhooks?, hproc, hname, Except.toOption]
  · next id hname =>
    cases hremove : s.world.removeHook ctx.thread tok id with
    | error e =>
      refine .same ?_
      simp [unhooks?, hproc, hname, hremove, Except.toOption]
    | ok r =>
      obtain ⟨found, w⟩ := r
      have hunhooks : s.unhooks? ctx (.process p (.removeHook h)) = some (tok, id) := by
        simp [unhooks?, hproc, hname, hremove, Except.toOption]
      have hoperand : s.callOperand? ctx (.process p (.removeHook h)) = some tok :=
        process_eq_ok.1 hproc
      obtain ⟨q', hq, -, rfl⟩ := removeHook_ok hremove
      -- the hooks are those of the process as it is
      have hworld : s.world.modifyProcess tok (unhooked id) =
          s.world.modifyProcess tok fun q => { q with hooks := (q'.hooks.remove id).2 } :=
        modifyProcess_congr fun q hget => by
          obtain rfl := Option.some.inj (hget.symm.trans (live_ok.1 hq).1)
          rfl
      exact hworld ▸ .unhooks hoperand hunhooks

/-- A call to a process alters at most this process and the thread's binding to it. -/
theorem plainProcessCall {p : Name} (hproc : s.process p = .ok tok) (q : Process) (c : ProcessCall) :
    s.Alters ctx (.process p c) (s.plainProcessCall ctx tok q c).2.world := by
  have hoperand : ∀ c, s.callOperand? ctx (.process p c) = some tok := fun _ => process_eq_ok.1 hproc
  -- calls that read, or only keep what they find, fall under `same`
  cases c with
  | removeHook h => exact removeHook hproc q
  | install => exact .installs hproc
  | bind i as? =>
    simp only [Session.plainProcessCall]
    split
    · exact .same rfl
    · next id hkeep =>
      have hbinds : s.Alters ctx (.process p (.bind i as?)) (s.world.bind ctx.thread tok id).2 :=
        .binds hproc hkeep
      split
      · rw [world_keepHandle]
        exact hbinds
      · exact hbinds
  | release =>
    simp only [Session.plainProcessCall, Session.change]
    split
    · next hrelease => exact .releases hproc hrelease
    · exact .same rfl
  | find i as? =>
    simp only [Session.plainProcessCall]
    split
    · exact .same rfl
    · rw [world_keepAnswer]
      exact .same rfl
  | initial as? =>
    simp only [Session.plainProcessCall, world_keepAnswer]
    exact .same rfl
  | current as? =>
    simp only [Session.plainProcessCall]
    split
    · rw [world_keepInstance]
      exact .same rfl
    · exact .same rfl
  | currentThread as? =>
    simp only [Session.plainProcessCall]
    split
    · rw [world_keepHandle]
      exact .same rfl
    · exact .same rfl
  | setDoUndump b => exact startupFlag (hoperand _) rfl fun _ => rfl
  | setEarlyTaint b => exact startupFlag (hoperand _) rfl fun _ => rfl
  | forceDoUndump b => exact .edits _ (hoperand _) rfl fun _ => rfl
  | setShPath text =>
    exact guarded (hoperand _) rfl (fun p => (p.shPath, fun q => { q with shPath := text }))
      fun _ _ => rfl
  | setProgramName text =>
    exact guarded (hoperand _) rfl (fun p => (p.programName, fun q => { q with programName := text }))
      fun _ _ => rfl
  | increment op =>
    exact guarded (hoperand _) rfl (fun p => ((p.opRefs.increment op).1, fun q =>
      { q with opRefs := (p.opRefs.increment op).2 })) fun _ _ => rfl
  | decrement op =>
    exact guarded (hoperand _) rfl (fun p => ((p.opRefs.decrement op).1, fun q =>
      { q with opRefs := (p.opRefs.decrement op).2 })) fun _ _ => rfl
  | recordAlloc n => exact allocStats (hoperand _) rfl
  | recordFree n => exact allocStats (hoperand _) rfl
  | _ => exact .same rfl

/-! ## Calls on what is in hand -/

/-- In a closure on an instance, its variables are altered and nothing else. -/
theorem onInstance {c : FocusCall} {id : InstanceId} (hfocus : ctx.focus = .instanceVars id)
    (hkeeps : s.unhooks? ctx (.focus c) = none) (f : InstanceVars → Answer × InstanceVars) :
    s.Alters ctx (.focus c) (s.onInstance id f).2.world := by
  unfold Session.onInstance
  split
  · exact .same hkeeps
  · exact .vars _ hfocus

/-- In a closure on a binding, its variables are altered and nothing else. -/
theorem onThread {c : FocusCall} {t : ThreadId} {storage : StorageId}
    (hfocus : ctx.focus = .threadVars t storage) (hkeeps : s.unhooks? ctx (.focus c) = none)
    (f : ThreadVars → Answer × ThreadVars) :
    s.Alters ctx (.focus c) (s.onThread t storage f).2.world := by
  unfold Session.onThread
  split
  · exact .same hkeeps
  · next st _ => exact .threadVars (fun _ => (f st.vars).2) hfocus

/-- The process is changed as it is. -/
theorem onProcess {c : FocusCall} (hoperand : s.inHand? ctx.focus = some tok)
    (hkeeps : s.unhooks? ctx (.focus c) = none) {f : Process → Answer × Process}
    (hhooks : ∀ p, (f p).2.hooks = p.hooks) :
    s.Alters ctx (.focus c) (s.onProcess tok f).2.world := by
  unfold Session.onProcess
  split
  · exact .same hkeeps
  · next p hp =>
    have hworld : s.world.modifyProcess tok (fun q => (f q).2) =
        s.world.modifyProcess tok fun _ => (f p).2 :=
      modifyProcess_congr fun q hq => by rw [Option.some.inj (hq.symm.trans hp)]
    show s.Alters ctx (.focus c) (s.world.modifyProcess tok fun _ => (f p).2)
    rw [← hworld]
    exact .edits (fun q => (f q).2) hoperand hkeeps hhooks

/-- Calls that are made in a closure on an instance alter its variables at most. -/
theorem instanceCall {id : InstanceId} (hfocus : ctx.focus = .instanceVars id) (c : FocusCall) :
    s.Alters ctx (.focus c) (s.instanceCall id c).2.world := by
  have hkeeps : s.unhooks? ctx (.focus c) = none := unhooks?_of_focus (by simp [hfocus])
  cases c <;> first | exact .same hkeeps | exact onInstance hfocus hkeeps _

/-- Calls that are made in a closure on a binding alter its variables at most. -/
theorem threadCall {t : ThreadId} {storage : StorageId} (hfocus : ctx.focus = .threadVars t storage)
    (c : FocusCall) : s.Alters ctx (.focus c) (s.threadCall t storage c).2.world := by
  have hkeeps : s.unhooks? ctx (.focus c) = none := unhooks?_of_focus (by simp [hfocus])
  cases c <;> first | exact .same hkeeps | exact onThread hfocus hkeeps _

/-- Calls on a text in hand alter at most the process that it belongs to. -/
theorem textCall {place : TextPlace} (hfocus : ctx.focus = .text place true) (c : FocusCall) :
    s.Alters ctx (.focus c) (s.textCall place c).2.world := by
  have hkeeps : s.unhooks? ctx (.focus c) = none := unhooks?_of_focus (by simp [hfocus])
  have hset : ∀ text, s.Alters ctx (.focus c) (s.setTextAt text place).world := by
    intro text
    cases place with
    | cell c => exact .same hkeeps
    | _ =>
      have hoperand := congrArg s.inHand? hfocus
      exact .edits _ hoperand hkeeps fun _ => rfl
  cases c <;> first | exact .same hkeeps | exact hset _

/-- Calls on a registry in hand alter at most its process. -/
theorem registryCall (hfocus : ctx.focus = .registry tok) (c : FocusCall) :
    s.Alters ctx (.focus c) (s.registryCall ctx tok c).2.world := by
  have hoperand : s.inHand? ctx.focus = some tok := congrArg s.inHand? hfocus
  have hkeeps : s.unhooks? ctx (.focus c) = none := unhooks?_of_focus (by simp [hfocus])
  cases c with
  | insertInstance i =>
    simp only [Session.registryCall]
    split
    · exact .same hkeeps
    · exact onProcess hoperand hkeeps fun _ => rfl
  | removeInstance i =>
    simp only [Session.registryCall]
    split
    · exact .same hkeeps
    · exact onProcess hoperand hkeeps fun _ => rfl
  | findInstance i =>
    simp only [Session.registryCall]
    split
    · exact .same hkeeps
    · exact onProcess hoperand hkeeps fun _ => rfl
  | _ => exact .same hkeeps

/-- Calls on hooks in hand alter at most their process. -/
theorem hooksCall (hfocus : ctx.focus = .hooks tok true) (c : FocusCall) :
    s.Alters ctx (.focus c) (s.hooksCall tok c).2.world := by
  have hoperand : s.inHand? ctx.focus = some tok := congrArg s.inHand? hfocus
  cases c with
  | removeHook h =>
    simp only [Session.hooksCall]
    split
    · next f hname =>
      refine .same ?_
      simp [unhooks?, hfocus, hname, Except.toOption]
    · next id hname =>
      unfold Session.onProcess
      cases hp : s.world.processes.get? tok with
      | none =>
        refine .same ?_
        simp [unhooks?, hfocus, hp]
      | some p =>
        -- `unhooks` changes whichever process has the token, and the call the one that it has found
        have hunhooks : s.unhooks? ctx (.focus (.removeHook h)) = some (tok, id) := by
          simp [unhooks?, hfocus, hname, hp, Except.toOption]
        have hworld : s.world.modifyProcess tok (unhooked id) =
            s.world.modifyProcess tok fun _ => unhooked id p :=
          modifyProcess_congr fun q hq => by rw [Option.some.inj (hq.symm.trans hp)]
        show s.Alters ctx (.focus (.removeHook h)) (s.world.modifyProcess tok fun _ => unhooked id p)
        rw [← hworld]
        exact .unhooks hoperand hunhooks
  | _ => exact .same rfl

/-- Calls on counts of references alter at most their process. -/
theorem referencesCall (hfocus : ctx.focus = .references tok) (c : FocusCall) :
    s.Alters ctx (.focus c) (s.referencesCall tok c).2.world := by
  have hoperand : s.inHand? ctx.focus = some tok := congrArg s.inHand? hfocus
  have hkeeps : s.unhooks? ctx (.focus c) = none := unhooks?_of_focus (by simp [hfocus])
  cases c <;> first | exact .same hkeeps | exact onProcess hoperand hkeeps fun _ => rfl

/-- Calls on the figures of allocation alter at most their process. -/
theorem allocCall (hfocus : ctx.focus = .allocStats tok) (c : FocusCall) :
    s.Alters ctx (.focus c) (s.allocCall tok c).2.world := by
  have hoperand : s.inHand? ctx.focus = some tok := congrArg s.inHand? hfocus
  have hkeeps : s.unhooks? ctx (.focus c) = none := unhooks?_of_focus (by simp [hfocus])
  cases c <;> first | exact .same hkeeps | exact onProcess hoperand hkeeps fun _ => rfl

/-- Whatever is in hand, a call on it alters nothing else. -/
theorem focusCall (c : FocusCall) : s.Alters ctx (.focus c) (s.focusCall ctx c).2.world := by
  unfold Session.focusCall
  split
  · exact .same rfl
  · split
    · next hfocus => exact instanceCall hfocus _
    · next hfocus => exact threadCall hfocus _
    · next hfocus => exact textCall hfocus _
    · next hfocus => exact registryCall hfocus _
    · next hfocus => exact hooksCall hfocus _
    · next hfocus => exact referencesCall hfocus _
    · next hfocus => exact allocCall hfocus _
    -- the call does not fit what is in hand
    · next hhooks _ _ => exact .same (unhooks?_of_focus hhooks)

/-! ## Other calls -/

/-- Foreign code alters at most the process that is installed, or installs one. -/
theorem foreignCall (c : ForeignCall) :
    s.Alters ctx (.foreign c) (s.foreignCall ctx.thread c).2.world := by
  cases c with
  | start =>
    simp only [Session.foreignCall, foreignStart]
    split
    · exact .same rfl
    · next hnone =>
      split
      · exact .same rfl
      · exact .startsInstalled _ hnone
  | setProgramName bytes? =>
    simp only [Session.foreignCall, foreignSetProgramName]
    split
    · next name tok hname hinstalled =>
      split
      · next h =>
        obtain ⟨p, -, -, rfl⟩ := guarded_ok
          (fun p => (p.programName, fun q => { q with programName := _ })) h
        exact .edits _ hinstalled rfl fun _ => rfl
      · exact .same rfl
    · exact .same rfl
  | _ => exact .same rfl

/-- A call on a cell leaves the world alone. -/
theorem cellCall (t : ThreadId) (name : Name) (id : CellId) (cell : LockedCell) (c : CellCall) :
    (s.cellCall t name id cell c).2.world = s.world := by
  cases c with
  | write v =>
    simp only [Session.cellCall]
    split
    · rfl
    · split <;> rfl
  | read =>
    simp only [Session.cellCall]
    split <;> rfl
  | _ => rfl

/-- Calls that are none to a process alter at most what they operate on. -/
theorem plainCall {c : Call} (hplain : ∀ p c', c ≠ .process p c') :
    s.Alters ctx c (s.plainCall ctx c).2.world := by
  cases c with
  | start p config? =>
    simp only [Session.plainCall, Session.startProcess]
    split
    · exact .same rfl
    · exact .starts _
  | endThread name => exact .ends
  | focus c => exact focusCall c
  | foreign c => exact foreignCall c
  | process p c => exact absurd rfl (hplain p c)
  | cell name c =>
    simp only [Session.plainCall]
    split
    · rw [cellCall]
      exact .same rfl
    · exact .same rfl
  | keepInstalled p =>
    simp only [Session.plainCall, Session.keepInstalled]
    split <;> exact .same rfl
  | _ => exact .same rfl

end Alters

/-- A removal that is not refused is answered. -/
theorem call_of_unhooks? {p : Name} {c : ProcessCall} {r : Token × HookId}
    (h : s.unhooks? ctx (.process p c) = some r) :
    ∃ found s', s.call ctx (.process p c) = .done (.ok (.flag found)) s' := by
  cases c with
  | removeHook n =>
    obtain ⟨tok, hproc, h⟩ := Option.bind_eq_some_iff.1 h
    obtain ⟨id, hname, h⟩ := Option.bind_eq_some_iff.1 h
    obtain ⟨⟨found, w⟩, hremove, -⟩ := Option.map_eq_some_iff.1 h
    rw [toOption_eq_some] at hproc hname hremove
    obtain ⟨q, hq, -⟩ := removeHook_ok hremove
    refine ⟨found, s.withWorld w, ?_⟩
    rw [call_of_plain hproc (live_ok.1 hq).1 rfl]
    simp only [plainProcessCall, hname, hremove, change]
  | _ => cases h

/-- A call that is done at once alters one thing at most. -/
theorem alters_served {c : Call} {o : Outcome} (hdone : s.call ctx c = .done o s')
    (h : s.Served ctx c o s') : s.Alters ctx c s'.world := by
  cases h with
  | plain hplain => exact .plainCall hplain
  | process hproc hq hc => exact .plainProcessCall hproc _ _
  | @refused p c f =>
    refine .same (Option.eq_none_iff_forall_ne_some.2 fun r hr => ?_)
    obtain ⟨found, s', hanswered⟩ := call_of_unhooks? hr
    cases hdone.symm.trans hanswered
  | drawn hc _ => exact .draws hc
  | shutdown hproc hbegin => exact .shuts hproc hbegin

/-! ## Closures -/

theorem tables_undo (s : Session) (b : Body) :
    (s.undo b).world.processes = s.world.processes ∧ (s.undo b).world.instances = s.world.instances := by
  unfold undo
  split <;> exact ⟨rfl, rfl⟩

/-- What is unwound is locks and storages of threads. -/
theorem tables_unwind (s : Session) (stack : List Frame) :
    (Machine.unwind s stack).1.world.processes = s.world.processes ∧
      (Machine.unwind s stack).1.world.instances = s.world.instances := by
  refine Machine.unwind_induction (P := fun s' _ => s'.world.processes = s.world.processes ∧
    s'.world.instances = s.world.instances) (fun s' b _ h => ?_) (fun _ _ _ _ h => h) ⟨rfl, rfl⟩
  obtain ⟨hprocesses, hinstances⟩ := tables_undo s' b
  exact ⟨hprocesses.trans h.1, hinstances.trans h.2⟩

theorem tables_entered {steps : List Step} {b : Body} (h : s.Entered ctx steps b s') :
    s'.world.processes = s.world.processes ∧ s'.world.instances = s.world.instances := by
  cases h with
  | lock focus tokens ids htake =>
    obtain ⟨held, -, rfl⟩ := take_ok htake
    exact ⟨rfl, rfl⟩
  | storage tokens hborrow =>
    have hframe := (borrow_ok hborrow).frame
    exact ⟨hframe.processes, hframe.instances⟩
  | attempt => exact ⟨rfl, rfl⟩

end Session

end TieredState
