import TieredState.Proofs.Alterations
import TieredState.Proofs.Storages

/-!
# What refers to a process

A process is kept in existence by the names that a script has given it, by being the default of the whole
program, and by operations under way. `Refers` says that names and default go on as they were, and it
holds of everything that operates on a process: only calls that operate on none give names to processes
or take them away.
-/

namespace TieredState

namespace Session

open World

variable {s s' : Session} {ctx : Context} {t : ThreadId} {tok : Token}

@[simp] theorem names_withWorld (s : Session) (w : World) :
    (s.withWorld w).processes = s.processes := rfl

@[simp] theorem names_keepInstance (s : Session) (as? : Option Name) (id : InstanceId) :
    (s.keepInstance as? id).processes = s.processes := by
  cases as? <;> rfl

@[simp] theorem names_keepHandle (s : Session) (t : ThreadId) (as? : Option Name) (h : Handle) :
    (s.keepHandle t as? h).processes = s.processes := by
  cases as? <;> rfl

@[simp] theorem names_keepHook (s : Session) (as? : Option Name) (id : HookId) :
    (s.keepHook as? id).processes = s.processes := by
  cases as? <;> rfl

@[simp] theorem names_keepAnswer (s : Session) (as? : Option Name)
    (r : Except AccessError (Option InstanceId)) : (s.keepAnswer as? r).2.processes = s.processes := by
  cases r with
  | error e => rfl
  | ok id? =>
    cases id? with
    | none => rfl
    | some id => exact names_keepInstance s as? id

@[simp] theorem names_change {α : Type} (s : Session) (f : α → Answer)
    (r : Except AccessError (α × World)) : (s.change f r).2.processes = s.processes := by
  cases r <;> rfl

@[simp] theorem names_effect (s : Session) (r : Except AccessError World) :
    (s.effect r).2.processes = s.processes := names_change s _ _

@[simp] theorem names_onInstance (s : Session) (id : InstanceId)
    (f : InstanceVars → Answer × InstanceVars) : (s.onInstance id f).2.processes = s.processes := by
  unfold onInstance
  split <;> rfl

@[simp] theorem names_onThread (s : Session) (t : ThreadId) (storage : StorageId)
    (f : ThreadVars → Answer × ThreadVars) : (s.onThread t storage f).2.processes = s.processes := by
  unfold onThread
  split <;> rfl

@[simp] theorem names_onProcess (s : Session) (tok : Token) (f : Process → Answer × Process) :
    (s.onProcess tok f).2.processes = s.processes := by
  unfold onProcess
  split <;> rfl

@[simp] theorem names_setTextAt (s : Session) (text : String) (place : TextPlace) :
    (s.setTextAt text place).processes = s.processes := by
  cases place <;> rfl

/-- A call on a process gives no name to a process. -/
theorem names_plainProcessCall (s : Session) (ctx : Context) (tok : Token) (q : Process)
    (c : ProcessCall) : (s.plainProcessCall ctx tok q c).2.processes = s.processes := by
  cases c with
  | bind i as? =>
    simp only [plainProcessCall]
    split
    · rfl
    · split <;> simp
  | find i as? | current as? | currentThread as? | removeHook h =>
    simp only [plainProcessCall]
    split <;> simp
  | _ => simp [plainProcessCall, modifyProcess]

/-- Neither does one on what is in hand. -/
theorem names_focusCall (s : Session) (ctx : Context) (c : FocusCall) :
    (s.focusCall ctx c).2.processes = s.processes := by
  have hregistry : ∀ tok c, (s.registryCall ctx tok c).2.processes = s.processes := by
    intro tok c
    cases c with
    | insertInstance i | removeInstance i | findInstance i =>
      simp only [registryCall]
      split <;> simp
    | _ => simp [registryCall]
  have hhooks : ∀ tok c, (s.hooksCall tok c).2.processes = s.processes := by
    intro tok c
    cases c with
    | removeHook h =>
      simp only [hooksCall]
      split <;> simp
    | _ => simp [hooksCall]
  -- names are kept by the session, and what is in hand belongs to the world
  unfold focusCall
  cases c with
  | get op => rfl
  | _ =>
    cases ctx.focus with
    | nothing => rfl
    | instanceVars id => simp [instanceCall]
    | threadVars t storage => simp [threadCall]
    | text place writable => cases writable <;> simp [textCall]
    | registry tok => exact hregistry tok _
    | hooks tok writable =>
      cases writable with
      | false => rfl
      | true => exact hhooks tok _
    | references tok => simp [referencesCall]
    | allocStats tok => simp [allocCall, allocCall.change]

theorem names_foreignCall (s : Session) (t : ThreadId) (c : ForeignCall) :
    (s.foreignCall t c).2.processes = s.processes := by
  cases c with
  | start =>
    simp only [foreignCall, foreignStart]
    split
    · rfl
    · split <;> rfl
  | setProgramName bytes? =>
    simp only [foreignCall, foreignSetProgramName]
    split
    · split <;> rfl
    · rfl
  | _ => rfl

/-- What operates on a process leaves the names of processes as they are. -/
theorem Served.names {c : Call} {o : Outcome} (h : s.Served ctx c o s')
    (hoperand : s.callOperand? ctx c ≠ none) : s'.processes = s.processes := by
  cases h with
  | plain hplain =>
    cases c with
    | focus c => exact names_focusCall s ctx c
    | foreign c => exact names_foreignCall s ctx.thread c
    | process p c => exact absurd rfl (hplain p c)
    | _ => exact absurd rfl hoperand
  | process hproc hq hc => exact names_plainProcessCall s ctx _ _ _
  | refused | drawn | shutdown => rfl

/-- The end of a binding leaves the installed process as it is. -/
theorem installed?_unbindThread {w w' : World} {id? : Option InstanceId}
    (h : w.unbindThread t tok = .ok (id?, w')) : w'.installed? = w.installed? := by
  rcases unbindThread_cases h with ⟨-, rfl⟩ | ⟨b, -, -, rfl⟩ <;> rfl

/-- The end of an instance leaves the installed process as it is. -/
theorem installed?_tearDown (w : World) (t : ThreadId) (tok : Token) (id : InstanceId) :
    (w.tearDown t tok id).installed? = w.installed? := by
  show _ = (w.marked id).installed?
  unfold tearDown
  dsimp only
  split
  · split
    · next hunbind => exact installed?_unbindThread hunbind
    · rfl
  · rfl

/-- The default of the whole program stays what it is, unless there is none: then a process that is
started may become it, or one that has a name. -/
theorem Alters.installed?_cases {c : Call} {w : World} (h : s.Alters ctx c w) :
    w.installed? = s.world.installed? ∨ s.world.installed? = none ∧
      ((∃ config, w = ((s.world.start config).2.install (s.world.start config).1).2) ∨
        ∃ p tok, c = .process p .install ∧ s.process p = .ok tok ∧ w = (s.world.install tok).2) := by
  cases h with
  | startsInstalled config hnone => exact .inr ⟨hnone, .inl ⟨config, rfl⟩⟩
  | @installs p tok hproc =>
    cases hdefault : s.world.installed? with
    | none => exact .inr ⟨rfl, .inr ⟨p, tok, rfl, hproc, rfl⟩⟩
    | some tok' =>
      left
      unfold install
      rw [hdefault]
      exact hdefault
  | @binds p i as? tok' id =>
    -- binding changes a thread, and the default is kept beside the threads
    left
    rcases bind_cases s.world ctx.thread tok' id with ⟨e, hrefused⟩ | ⟨-, -, hbinds⟩
    · rw [hrefused]
    · obtain ⟨th', -, hw⟩ := bindThread_cases s.world ctx.thread tok' id
      rw [hbinds, hw]
      rfl
  | releases _ hrelease =>
    obtain ⟨_, -, hunbind⟩ := bind_eq_ok.1 hrelease
    exact .inl (installed?_unbindThread hunbind)
  | shuts _ hbegin =>
    obtain ⟨q, -, -, rfl⟩ := beginShutdown_ok hbegin
    exact .inl rfl
  | _ => exact .inl rfl

/-- Once a process is installed it stays so over every call. -/
theorem Alters.installed? {c : Call} {w : World} (h : s.Alters ctx c w)
    (hinstalled : s.world.installed? = some tok) : w.installed? = some tok := by
  rcases h.installed?_cases with hsame | ⟨hnone, -⟩
  · exact hsame.trans hinstalled
  · cases hinstalled.symm.trans hnone

/-- Whatever refers to a process goes on to do so, but for operations under way. -/
structure Refers (s s' : Session) : Prop where
  names : s'.processes = s.processes
  installed : ∀ tok, s.world.installed? = some tok → s'.world.installed? = some tok

/-- Where names and default stay, whatever referred to a process does so. -/
theorem Refers.of_eq (hnames : s'.processes = s.processes)
    (hinstalled : s'.world.installed? = s.world.installed?) : Refers s s' :=
  ⟨hnames, fun _ h => hinstalled.trans h⟩

/-- Names and default stay what they are. -/
structure SameReferences (s s' : Session) : Prop where
  names : s'.processes = s.processes
  installed? : s'.world.installed? = s.world.installed?

/-- The same references refer to the same processes. -/
theorem SameReferences.refers (h : SameReferences s s') : Refers s s' := .of_eq h.names h.installed?

theorem sameReferences_begins {tok : Token} {d : Dispatch} (h : s.Begins t tok d s') :
    SameReferences s s' := by
  cases h with
  | create as? henroll =>
    obtain ⟨-, rfl, -⟩ := mayTake_of_enroll henroll
    exact ⟨rfl, rfl⟩
  | destroy hwithdraw =>
    obtain ⟨p, -, -, -, rfl⟩ := withdraw_ok hwithdraw
    exact ⟨rfl, rfl⟩
  | shutdown hbegin =>
    obtain ⟨p, -, -, rfl⟩ := beginShutdown_ok hbegin
    exact ⟨rfl, rfl⟩

theorem sameReferences_finishes {d : Dispatch} {p : Progress} (h : s.Finishes d p) :
    SameReferences s p.session := by
  cases h with
  | create htask =>
    refine ⟨names_keepInstance _ _ _, ?_⟩
    show (s.keepInstance _ d.target).world.installed? = _
    rw [world_keepInstance]
  | destroy htask | next htask | shutdown htask => exact ⟨rfl, installed?_tearDown _ _ _ _⟩

theorem sameReferences_entered {steps : List Step} {b : Body} (h : s.Entered ctx steps b s') :
    SameReferences s s' := by
  cases h with
  | lock focus tokens ids htake =>
    obtain ⟨held, -, rfl⟩ := take_ok htake
    exact ⟨rfl, rfl⟩
  | storage tokens hborrow =>
    obtain ⟨st, -, -, -, rfl⟩ := borrowed_of_borrow hborrow
    exact ⟨rfl, rfl⟩
  | attempt => exact ⟨rfl, rfl⟩

theorem sameReferences_registerHook (s : Session) (ctx : Context) (r : HookRequest) (steps : List Step) :
    SameReferences s (s.registerHook ctx r steps).2 := by
  constructor
  · unfold registerHook
    dsimp only [addCallback]
    split
    · split
      · rfl
      · split
        · rfl
        · exact names_keepHook _ _ _
    · split
      · split
        · rfl
        · exact names_keepHook _ _ _
      · rfl
  · rcases registerHook_cases s ctx r steps with heq | ⟨tok', p, -, hworld, -⟩
    · rw [heq]
    · rw [hworld]
      rfl

end Session

end TieredState
