import TieredState.Proofs.HookIdentities
import TieredState.Proofs.References
import TieredState.Proofs.Sparing
import TieredState.Proofs.Unwinding

/-!
# What a step leaves alone

A step operates on one process at most, and alters nothing of any other. `operates?` names the process.
What a step can do is taken apart here by what it is done to: `InstanceTurn` lists what can become of an
instance, `processes_turn` says which processes change, `spares_step` which slots and which variables of
a thread do not, and `refers_turn` that an operation takes away no reference to another process.

* `LeavesAlone` — all this about one process.
* `leavesAlone_step` — a step leaves alone every process that it does not operate on.
-/

namespace TieredState

namespace Machine

open World Session

variable {m : Machine} {ctx : Context} {tok : Token} {id : InstanceId}

/-! ## The process that a step operates on -/

/-- The process that the next step operates on. An operation under way is one on its process, whatever
it comes to next. -/
def operates? (m : Machine) : Option Token :=
  match m.stack with
  | .dispatch d _ :: _ => some d.process
  | _ => m.next?.bind fun r => (m.opening r.1).operand? r.1 r.2

/-- While a dispatch is on top, the step operates on its process. -/
theorem operates?_of_dispatch {d : Dispatch} {job : Bool} {below : List Frame}
    (hstack : m.stack = .dispatch d job :: below) : m.operates? = some d.process := by
  unfold operates?
  rw [hstack]

/-- A step operates on what it asks for. -/
theorem operates?_of_next? {step : Step} (hnext : m.next? = some (ctx, step)) :
    m.operates? = (m.opening ctx).operand? ctx step := by
  unfold operates?
  split
  · next d job below hstack => cases (next?_of_dispatch hstack).symm.trans hnext
  · rw [hnext]
    rfl

/-- Where no step is to be taken and no operation is under way on top, nothing is operated on. -/
theorem operates?_of_none (hnext : m.next? = none)
    (hstack : ∀ d job below, m.stack ≠ .dispatch d job :: below) : m.operates? = none := by
  unfold operates?
  split
  · next d job below heq => exact absurd heq (hstack d job below)
  · rw [hnext]
    rfl

/-- A call operates on what it names. -/
theorem operates?_of_nextCall? {c : Call} (hcall : m.nextCall? = some (ctx, c)) :
    m.operates? = (m.opening ctx).callOperand? ctx c := by
  obtain ⟨on?, hnext⟩ := next?_of_nextCall? hcall
  exact operates?_of_next? hnext

/-- A call to a process operates on this process. -/
theorem operates?_of_process {p : Name} {c : ProcessCall}
    (hcall : m.nextCall? = some (ctx, .process p c)) (hproc : m.session.process p = .ok tok) :
    m.operates? = some tok :=
  (operates?_of_nextCall? hcall).trans (process_eq_ok.1 hproc)

end Machine

/-! ## Processes -/

namespace World

variable {w w' : World} {t : ThreadId} {tok tok' : Token} {id : InstanceId}

/-- A change of one process leaves the others alone. -/
theorem get?_modifyProcess_ne (hne : tok' ≠ tok) (f : Process → Process) :
    (w.modifyProcess tok f).processes.get? tok' = w.processes.get? tok' := by
  rw [get?_modifyProcess, if_neg hne]

theorem processes_install (w : World) (tok : Token) : (w.install tok).2.processes = w.processes := by
  unfold install
  split <;> rfl

/-- The release of one key leaves other processes alone. -/
theorem get?_releaseKey_ne (hne : tok' ≠ tok) (w : World) (t : ThreadId) :
    (w.releaseKey t tok).processes.get? tok' = w.processes.get? tok' :=
  get?_modifyProcess_ne hne _

theorem instances_tearDown (w : World) (t : ThreadId) (tok : Token) (id : InstanceId) :
    (w.tearDown t tok id).instances = (w.marked id).instances := by
  rcases tearDown_cases w t tok id with ⟨heq, -⟩ | ⟨-, hunbind⟩
  · rw [heq]
  · exact hunbind.frame.instances

end World

namespace Session

open World

variable {s s' : Session} {ctx : Context} {t : ThreadId} {tok tok' : Token}

/-- What is operated on is not what is left alone. -/
theorem ne_of_operand {o? : Option Token} (hoperand : o? = some tok') (hne : o? ≠ some tok) :
    tok ≠ tok' := by
  rintro rfl
  exact hne hoperand

/-- A call changes no process but the one that it operates on. One without such a process may start a
new one. -/
theorem Alters.processes {c : Call} {w : World} (h : s.Alters ctx c w)
    (hne : s.callOperand? ctx c ≠ some tok) :
    w.processes.get? tok = s.world.processes.get? tok ∨
      s.callOperand? ctx c = none ∧ tok = ⟨s.world.nextToken⟩ := by
  -- a process that is started takes the next token, so it is no other process
  have hstart : ∀ config, ((s.world.start config).2.processes.get? tok =
      s.world.processes.get? tok ∨ tok = ⟨s.world.nextToken⟩) := by
    intro config
    rw [get?_start]
    split
    · next heq => exact .inr heq
    · exact .inl rfl
  cases h with
  | same | vars | threadVars | ends | draws => exact .inl rfl
  | edits f hoperand => exact .inl (get?_modifyProcess_ne (ne_of_operand hoperand hne) f)
  | unhooks hoperand => exact .inl (get?_modifyProcess_ne (ne_of_operand hoperand hne) _)
  | starts config => exact (hstart config).imp_right fun heq => ⟨rfl, heq⟩
  | startsInstalled config hnone =>
    rw [processes_install]
    exact (hstart config).imp_right fun heq => ⟨hnone, heq⟩
  | installs => exact .inl (congrArg (·.get? tok) (processes_install _ _))
  | binds => exact .inl (congrArg (·.get? tok) (local_bind _ _ _ _).processes)
  | releases _ hrelease => exact .inl (congrArg (·.get? tok) (local_release hrelease).processes)
  | shuts hproc hbegin =>
    have htok := ne_of_operand (process_eq_ok.1 hproc) hne
    obtain ⟨q, -, -, rfl⟩ := beginShutdown_ok hbegin
    exact .inl ((get?_releaseKey_ne htok _ _).trans (get?_modifyProcess_ne htok _))

/-- The beginning of an operation leaves other processes alone. -/
theorem Begins.processes {d : Dispatch} (h : s.Begins t tok' d s') (hne : tok ≠ tok') :
    s'.world.processes.get? tok = s.world.processes.get? tok := by
  cases h with
  | create as? henroll =>
    obtain ⟨-, rfl, -⟩ := mayTake_of_enroll henroll
    exact get?_modifyProcess_ne (w := s.world.draw) hne _
  | destroy hwithdraw =>
    obtain ⟨p, -, -, -, rfl⟩ := withdraw_ok hwithdraw
    exact get?_modifyProcess_ne hne _
  | shutdown hbegin =>
    obtain ⟨p, -, -, rfl⟩ := beginShutdown_ok hbegin
    exact get?_modifyProcess_ne hne _

/-- The end of an operation leaves other processes alone. -/
theorem Finishes.processes {d : Dispatch} {p : Progress} (h : s.Finishes d p) (hne : tok ≠ d.process) :
    p.session.world.processes.get? tok = s.world.processes.get? tok := by
  have htear : (s.world.tearDown d.thread d.process d.target).processes.get? tok =
      s.world.processes.get? tok := by rw [processes_tearDown]
  cases h with
  | create htask =>
    show (s.keepInstance _ d.target).world.processes.get? tok = _
    rw [world_keepInstance]
  | destroy htask | next htask => exact htear
  | shutdown htask => exact (get?_releaseKey_ne hne _ _).trans htear

/-- A registration is one with the process that gives out the identity. -/
theorem operand_of_issues? {on? : Option String} {r : HookRequest} {steps : List Step} {hook : HookId}
    (h : s.issues? ctx r = some (tok, hook)) : s.operand? ctx (.register on? r steps) = some tok := by
  unfold issues? at h
  unfold operand?
  dsimp only
  -- the process is named, or is the one that the closure has in hand
  cases hprocess : r.process? with
  | some p =>
    rw [hprocess] at h
    obtain ⟨tok', hproc, h⟩ := Option.bind_eq_some_iff.1 h
    obtain ⟨added, -, heq⟩ := Option.map_eq_some_iff.1 h
    obtain ⟨rfl, -⟩ := Prod.mk.inj heq
    dsimp only
    exact process_eq_ok.1 (toOption_eq_some.1 hproc)
  | none =>
    rw [hprocess] at h
    dsimp only at h
    split at h
    · next hfocus =>
      obtain ⟨p, -, heq⟩ := Option.map_eq_some_iff.1 h
      obtain ⟨rfl, -⟩ := Prod.mk.inj heq
      dsimp only
      rw [hfocus]
      rfl
    · cases h

end Session

namespace Machine

open World Session

variable {m : Machine} {ctx : Context} {t : ThreadId} {tok : Token} {id : InstanceId}

/-- A step changes no process but the one that it operates on. One that operates on none may start a new
one. -/
theorem processes_turn {sc : Scene} (h : Turn m sc) (hne : m.operates? ≠ some tok) :
    sc.session.world.processes.get? tok = m.session.world.processes.get? tok ∨
      m.operates? = none ∧ tok = ⟨m.session.world.nextToken⟩ := by
  have hdispatch : ∀ {d job below}, m.stack = .dispatch d job :: below → tok ≠ d.process :=
    fun hstack => ne_of_operand (operates?_of_dispatch hstack) hne
  cases h with
  | idle | refused | skips | calls => exact .inl rfl
  | served hcall hdone hserved =>
    have hoperand := operates?_of_nextCall? hcall
    rw [hoperand] at hne ⊢
    exact (alters_served hdone hserved).processes hne
  | begins job hcall hproc _ hbegins =>
    exact .inl (hbegins.processes (ne_of_operand (operates?_of_process hcall hproc) hne))
  | opens job hnext henter =>
    exact .inl (congrArg (·.get? tok) (tables_entered (entered_of_enter henter)).1)
  | @registers ctx on? r steps hnext =>
    rw [operates?_of_next? hnext] at hne
    rcases registerHook_issues (m.opening ctx) ctx r steps with ⟨-, heq⟩ | ⟨tok', p, -, hissues, hworld⟩
    · rw [heq]
      exact .inl rfl
    · show ((m.opening ctx).registerHook ctx r steps).2.world.processes.get? tok = _ ∨ _
      rw [hworld]
      exact .inl (get?_modifyProcess_ne (ne_of_operand (operand_of_issues? hissues) hne) _)
  | fails => exact .inl (congrArg (·.get? tok) (tables_unwind _ _).1)
  | @closes b => exact .inl (congrArg (·.get? tok) (tables_undo _ b).1)
  | finishes hstack _ hdone =>
    exact .inl ((finishes_of_finish hdone).processes (hdispatch hstack))
  | goesOn hstack _ hrunning =>
    exact .inl ((finishes_of_finish hrunning).processes (hdispatch hstack))

end Machine

/-! ## Instances -/

namespace Session

open World

variable {s s' : Session} {ctx : Context} {tok : Token} {id : InstanceId}

/-- The call creates an instance, with the parent if it is spawned. -/
inductive Creates (s : Session) (ctx : Context) : ProcessCall → Option InstanceId → Prop
  | create (as? : Option Name) : Creates s ctx (.create as?) none
  | spawn {n : Name} {parent : InstanceId} (as? : Option Name)
    (hname : s.instanceNamed ctx n = .ok parent) : Creates s ctx (.spawn n as?) (some parent)

/-- A call that begins an operation registers a new instance, or makes none. -/
theorem instances_running {p : Name} {c : ProcessCall} {d : Dispatch} (hproc : s.process p = .ok tok)
    (h : s.call ctx (.process p c) = .running d s') :
    s'.world.instances = s.world.instances ∨
      ∃ parent?, s.Creates ctx c parent? ∧ s'.world = s.world.enrolled tok parent? := by
  -- a call that creates an instance goes on only if the instance was enrolled
  have hcreate : ∀ {as? parent?}, s.beginCreate ctx.thread tok as?
      (s.world.enroll ctx.thread tok parent?) = .running d s' →
        s'.world = s.world.enrolled tok parent? := by
    intro as? parent? hrunning
    unfold beginCreate at hrunning
    rcases enroll_cases s.world ctx.thread tok parent? with ⟨e, heq⟩ | ⟨e, heq⟩ | ⟨q, -, -, heq⟩
    · rw [heq] at hrunning
      cases hrunning
    · rw [heq] at hrunning
      cases hrunning
    · rw [heq] at hrunning
      dsimp only at hrunning
      split at hrunning
      · cases hrunning
      · obtain ⟨-, rfl⟩ := Progress.running.inj hrunning
        rfl
  simp only [call] at h
  rw [hproc] at h
  dsimp only at h
  cases c with
  | create as? => exact .inr ⟨none, .create as?, hcreate h⟩
  | spawn n as? =>
    simp only [processCall] at h
    split at h
    · cases h
    · next parent hname =>
      unfold enrollChild at h
      split at h
      · cases h
      · split at h
        · cases h
        · exact .inr ⟨some parent, .spawn as? hname, hcreate h⟩
  | destroy i =>
    simp only [processCall, beginDestroy] at h
    split at h
    · cases h
    · split at h
      · cases h
      · next hwithdraw =>
        obtain ⟨-, rfl⟩ := Progress.running.inj h
        obtain ⟨q, -, -, -, rfl⟩ := withdraw_ok hwithdraw
        exact .inl rfl
  | shutdown =>
    simp only [processCall, beginShutdown] at h
    split at h
    · cases h
    · next ids w hbegin =>
      obtain ⟨q, -, -, rfl⟩ := beginShutdown_ok hbegin
      cases ids with
      | nil => cases h
      | cons id rest =>
        obtain ⟨-, rfl⟩ := Progress.running.inj h
        exact .inl rfl
  | _ =>
    simp only [processCall] at h
    split at h <;> cases h

end Session

namespace Machine

open World Session

variable {m : Machine} {ctx : Context} {t : ThreadId} {tok : Token} {id : InstanceId}

/-- What a step does to an instance, apart from dropping it. -/
inductive InstanceTurn (m : Machine) (id : InstanceId) : Option Instance → Prop
  | same : InstanceTurn m id (m.session.world.instances.get? id)
  /-- Its variables are changed by a closure that has them in hand. -/
  | vars {ctx : Context} {c : FocusCall} {i : Instance} (vars : InstanceVars)
    (hcall : m.nextCall? = some (ctx, .focus c)) (hfocus : ctx.focus = .instanceVars id)
    (hi : m.session.world.instances.get? id = some i) : InstanceTurn m id (some { i with vars })
  /-- It is made. -/
  | made {ctx : Context} {p : Name} {c : ProcessCall} {tok : Token} {parent? : Option InstanceId}
    (hcall : m.nextCall? = some (ctx, .process p c)) (hproc : m.session.process p = .ok tok)
    (hcreates : (m.opening ctx).Creates ctx c parent?) (hnew : id = ⟨m.session.world.nextInstance⟩) :
    InstanceTurn m id (some { parent?, owner := tok })
  /-- It is marked dead when the hooks for it have run. -/
  | marked {d : Dispatch} {i : Instance} (hfin : m.finishing? = some d)
    (htask : ∀ as?, d.task ≠ .create as?) (htarget : d.target = id)
    (hi : m.session.world.instances.get? id = some i) :
    InstanceTurn m id (some { i with alive := false })

/-- An instance may stay as it is in every step. -/
theorem InstanceTurn.of_eq {w : World}
    (h : w.instances.get? id = m.session.world.instances.get? id) :
    InstanceTurn m id (w.instances.get? id) := by
  rw [h]
  exact .same

theorem instanceTurn_alters {c : Call} {w : World} (hcall : m.nextCall? = some (ctx, c))
    (h : (m.opening ctx).Alters ctx c w) (id : InstanceId) :
    InstanceTurn m id (w.instances.get? id) := by
  cases h with
  | @vars c id' vars hfocus =>
    rw [get?_modifyInstance]
    split
    · next heq =>
      subst heq
      -- a closure may outlive the instance that it has in hand; then nothing is written
      cases hi : m.session.world.instances.get? id with
      | none =>
        have hnone : (m.opening ctx).world.instances.get? id = none := hi
        rw [hnone, Option.map_none, ← hi]
        exact .same
      | some i =>
        have hsome : (m.opening ctx).world.instances.get? id = some i := hi
        rw [hsome]
        exact .vars vars hcall hfocus hi
    · exact .same
  | startsInstalled | installs =>
    refine .of_eq ?_
    unfold install
    split <;> rfl
  | binds => exact .of_eq (congrArg (·.get? id) (local_bind _ _ _ _).instances)
  | releases _ hrelease => exact .of_eq (congrArg (·.get? id) (local_release hrelease).instances)
  | shuts _ hbegin =>
    obtain ⟨q, -, -, rfl⟩ := beginShutdown_ok hbegin
    exact .same
  | _ => exact .same

theorem instanceTurn_finishes {d : Dispatch} {p : Progress} (hfin : m.finishing? = some d)
    (h : m.session.Finishes d p) (id : InstanceId) :
    InstanceTurn m id (p.session.world.instances.get? id) := by
  -- all but the end of a creation tear the instance of the dispatch down, and no other
  have htear : (∀ as?, d.task ≠ .create as?) → InstanceTurn m id
      ((m.session.world.tearDown d.thread d.process d.target).instances.get? id) := by
    intro htask
    rw [instances_tearDown]
    unfold World.marked
    rw [get?_modifyInstance]
    split
    · next heq =>
      cases hi : m.session.world.instances.get? id with
      | none =>
        rw [Option.map_none, ← hi]
        exact .same
      | some i => exact .marked hfin htask heq.symm hi
    · exact .same
  cases h with
  | create htask =>
    refine .of_eq ?_
    show (m.session.keepInstance _ d.target).world.instances.get? id = _
    rw [world_keepInstance]
  | destroy htask | next htask => exact htear (by simp [htask])
  | shutdown htask =>
    have htear := htear (by simp [htask])
    exact htear

/-- What a step of any kind does to an instance, before the sweep. -/
theorem instanceTurn_turn {sc : Scene} (h : Turn m sc) (id : InstanceId) :
    InstanceTurn m id (sc.session.world.instances.get? id) := by
  cases h with
  | idle | refused | skips | calls => exact .same
  | served hcall hdone hserved => exact instanceTurn_alters hcall (alters_served hdone hserved) id
  | @begins ctx p c tok d s job hcall hproc hrunning hbegins =>
    show InstanceTurn m id (s.world.instances.get? id)
    rcases instances_running (s := m.opening ctx) hproc hrunning with heq | ⟨parent?, hcreates, heq⟩
    · exact .of_eq (congrArg (·.get? id) heq)
    · rw [heq, get?_enrolled]
      split
      · next hnew => exact .made hcall hproc hcreates hnew
      · exact .same
  | opens job hnext henter =>
    exact .of_eq (congrArg (·.get? id) (tables_entered (entered_of_enter henter)).2)
  | @registers ctx on? r steps hnext =>
    rcases registerHook_cases (m.opening ctx) ctx r steps with heq | ⟨tok', p, -, hworld, -⟩
    · rw [heq]
      exact .same
    · show InstanceTurn m id (((m.opening ctx).registerHook ctx r steps).2.world.instances.get? id)
      rw [hworld]
      exact .same
  | fails => exact .of_eq (congrArg (·.get? id) (tables_unwind _ _).2)
  | @closes b => exact .of_eq (congrArg (·.get? id) (tables_undo _ b).2)
  | finishes _ hfin hdone => exact instanceTurn_finishes hfin (finishes_of_finish hdone) id
  | goesOn _ hfin hrunning => exact instanceTurn_finishes hfin (finishes_of_finish hrunning) id

/-- What a step does to an instance is a turn of it, up to the sweep. -/
theorem instanceTurn_act (m : Machine) (id : InstanceId) :
    InstanceTurn m id (m.act.session.world.instances.get? id) :=
  instanceTurn_turn (act_turn m) id

/-- What is there after a step was not made by the sweep. -/
theorem get?_of_step {i : Instance} (h : m.step.session.world.instances.get? id = some i) :
    m.act.session.world.instances.get? id = some i :=
  instance_of_sweep h

end Machine

/-! ## References to processes -/

namespace Machine

open World Session

variable {m : Machine} {ctx : Context} {tok : Token} {id : InstanceId}

/-- An operation on a process takes away no reference to another one. -/
theorem refers_turn {sc : Scene} (h : Turn m sc) (hop : m.operates? ≠ none) :
    Refers m.session sc.session ∧
      ∀ tok ∈ m.heldTokens, m.operates? ≠ some tok → tok ∈ sc.stack.flatMap Frame.tokens := by
  have hheld : ∀ (s : Session) {fs fs' : List Frame}, fs <:+ fs' → ∀ {tok}, tok ∈ fs.flatMap Frame.tokens →
      tok ∈ (Scene.of s fs').stack.flatMap Frame.tokens := by
    intro s fs fs' hsuffix tok htok
    show tok ∈ (fs'.map Frame.shell).flatMap Frame.tokens
    rw [Frame.flatMap_shell Frame.tokens_shell]
    obtain ⟨f, hf, htok⟩ := List.mem_flatMap.1 htok
    exact List.mem_flatMap.2 ⟨f, hsuffix.subset hf, htok⟩
  have hmore : ∀ (s : Session) {fs : List Frame}, m.stack <:+ fs → ∀ tok ∈ m.heldTokens,
      m.operates? ≠ some tok → tok ∈ (Scene.of s fs).stack.flatMap Frame.tokens :=
    fun s fs hsuffix tok htok _ => hheld s hsuffix htok
  -- an operation that goes on or ends holds its own process only
  have hbelow : ∀ {d job below}, m.stack = .dispatch d job :: below → ∀ (s : Session) {fs : List Frame},
      below <:+ fs → ∀ tok ∈ m.heldTokens, m.operates? ≠ some tok →
        tok ∈ (Scene.of s fs).stack.flatMap Frame.tokens := by
    intro d job below hstack s fs hsuffix tok htok hne
    unfold heldTokens at htok
    rw [hstack, List.flatMap_cons] at htok
    rcases List.mem_append.1 htok with hown | htok
    · obtain rfl := List.mem_singleton.1 hown
      exact absurd (operates?_of_dispatch hstack) hne
    · exact hheld s hsuffix htok
  cases h with
  | idle hstack hnext => exact absurd (operates?_of_none hnext (by simp [hstack])) hop
  | @served ctx c o s hcall hdone hserved =>
    have hoperand := operates?_of_nextCall? hcall
    rw [hoperand] at hop
    exact ⟨⟨hserved.names hop, fun tok hinstalled =>
      (alters_served hdone hserved).installed? hinstalled⟩, hmore s (List.suffix_refl _)⟩
  | @begins ctx p c tok d s job hcall hproc _ hbegins =>
    have hrefers := (sameReferences_begins hbegins).refers
    exact ⟨⟨hrefers.names, hrefers.installed⟩, hmore s (List.suffix_cons _ _)⟩
  | refused => exact ⟨.of_eq rfl rfl, hmore _ (List.suffix_refl _)⟩
  | opens job hnext henter =>
    have hrefers := (sameReferences_entered (entered_of_enter henter)).refers
    exact ⟨⟨hrefers.names, hrefers.installed⟩, hmore _ (List.suffix_cons _ _)⟩
  | @registers ctx on? r steps hnext =>
    have hrefers := (sameReferences_registerHook (m.opening ctx) ctx r steps).refers
    exact ⟨⟨hrefers.names, hrefers.installed⟩, hmore _ (List.suffix_refl _)⟩
  | fails hnext => exact absurd (operates?_of_next? hnext) hop
  | closes hstack hpending =>
    exact absurd (operates?_of_none (next?_of_done hstack hpending) (by simp [hstack])) hop
  | skips hstack => exact ⟨.of_eq rfl rfl, hbelow hstack _ (List.suffix_cons _ _)⟩
  | calls hstack =>
    exact ⟨.of_eq rfl rfl, hbelow hstack _ ((List.suffix_cons _ _).trans (List.suffix_append _ _))⟩
  | finishes hstack _ hdone =>
    have hrefers := (sameReferences_finishes (finishes_of_finish hdone)).refers
    exact ⟨⟨hrefers.names, hrefers.installed⟩, hbelow hstack _ (List.suffix_refl _)⟩
  | goesOn hstack _ hrunning =>
    have hrefers := (sameReferences_finishes (finishes_of_finish hrunning)).refers
    exact ⟨⟨hrefers.names, hrefers.installed⟩, hbelow hstack _ (List.suffix_cons _ _)⟩

/-! ## Threads -/

section Threads

open Thread

variable {t : ThreadId} {kept : Token → Prop} {still : StorageId → Prop}

/-- A call spares what a thread keeps for processes that it does not operate on. -/
theorem spares_alters {c : Call} {w : World} (hcall : m.nextCall? = some (ctx, c))
    (h : (m.opening ctx).Alters ctx c w) (ht : m.ends t = false)
    (hkept : m.actor = t → ∀ tok, kept tok →
      m.operates? ≠ some tok ∧ m.session.world.isReleased tok = false)
    (hstill : ∀ s, still s → ∀ c', c = .focus c' → ctx.focus ≠ .threadVars t s) :
    Spares kept still (m.session.world.thread t) (w.thread t) := by
  have hactor := actor_of_nextCall? hcall
  have hoperand := operates?_of_nextCall? hcall
  -- what the thread keeps under the process that it operates on may change
  have htok : ∀ {tok}, (m.opening ctx).callOperand? ctx c = some tok → t = ctx.thread → ¬ kept tok :=
    fun heq hthread htok => (hkept (hactor.trans hthread.symm) _ htok).1 (hoperand.trans heq)
  rw [← thread_opening m ctx t]
  cases h with
  | @threadVars c t' storage f hfocus =>
    unfold modifyThreadVars
    rw [thread_setThread]
    split
    · next heq =>
      subst heq
      refine ⟨fun _ _ => rfl, Nat.le_refl _, fun s st' hs _ hget => ?_⟩
      have hne : s ≠ storage := by
        rintro rfl
        exact hstill s hs c rfl hfocus
      rw [Table.get?_modify, if_neg hne] at hget
      exact ⟨st', hget, rfl⟩
    · exact .refl _
  | @ends name =>
    rw [thread_withoutThread, if_neg (ne_of_endThread hcall ht)]
    exact .refl _
  -- which process is installed is told by no thread
  | startsInstalled | installs =>
    refine .of_eq ?_
    unfold install
    split <;> rfl
  | binds hproc hkeep =>
    have hrel : t = ctx.thread → ∀ tok, kept tok → (m.opening ctx).world.isReleased tok = false :=
      fun hthread tok htok => (hkept (hactor.trans hthread.symm) tok htok).2
    exact spares_bind (htok (process_eq_ok.1 hproc)) hrel _
  | releases hproc hrelease => exact spares_release hrelease (htok (process_eq_ok.1 hproc))
  | shuts hproc hbegin =>
    obtain ⟨q, -, -, rfl⟩ := beginShutdown_ok hbegin
    exact spares_releaseKey (htok (process_eq_ok.1 hproc))
  | _ => exact .refl _

/-- A step touches the slots of the acting thread only, and of those the one of the process that it
operates on. Those of processes whose bindings are void are left out of account. It writes to the
variables of a binding only by a call of a closure that has them in hand. -/
theorem spares_turn {sc : Scene} (h : Turn m sc) (ht : m.ends t = false)
    (hkept : m.actor = t → ∀ tok, kept tok →
      m.operates? ≠ some tok ∧ m.session.world.isReleased tok = false)
    (hstill : ∀ s, still s → ∀ ctx c, m.nextCall? = some (ctx, .focus c) →
      ctx.focus ≠ .threadVars t s) :
    Spares kept still (m.session.world.thread t) (sc.session.world.thread t) := by
  -- an operation that ends is on the process that the step operates on
  have hfinishes : ∀ {d p}, m.finishing? = some d → m.operates? = some d.process →
      m.session.Finishes d p → Spares kept still (m.session.world.thread t) (p.session.world.thread t) :=
    fun hfin hop hfinishes => hfinishes.spares fun hthread htok =>
      (hkept ((actor_of_finishing? hfin).trans hthread.symm) _ htok).1 hop
  have hopening : ∀ ctx, Spares kept still (m.session.world.thread t) ((m.opening ctx).world.thread t) :=
    fun ctx => .of_eq (thread_opening m ctx t)
  cases h with
  | idle | skips | calls => exact .refl _
  | @served ctx c o s hcall hdone hserved =>
    show Spares kept still _ (s.world.thread t)
    refine spares_alters hcall (alters_served hdone hserved) ht hkept fun s hs c' heq => ?_
    exact hstill s hs _ c' (heq ▸ hcall)
  | @begins ctx p c tok d s job hcall hproc hrunning hbegins =>
    show Spares kept still _ (s.world.thread t)
    exact (hopening ctx).trans (.of_eq ((Steady.begins hbegins).threads t))
  | refused => exact hopening _
  | @opens ctx on? o steps b s job hnext henter =>
    show Spares kept still _ (s.world.thread t)
    exact (hopening ctx).trans (spares_entered (entered_of_enter henter))
  | @registers ctx on? r steps hnext =>
    show Spares kept still _ (((m.opening ctx).registerHook ctx r steps).2.world.thread t)
    rcases registerHook_cases (m.opening ctx) ctx r steps with heq | ⟨tok', p, -, hworld, -⟩
    · rw [heq]
      exact hopening ctx
    · rw [hworld]
      exact hopening ctx
  | fails => exact (hopening _).trans (spares_unwind _ _)
  | closes => exact spares_undo _ _
  | finishes hstack hfin hdone =>
    exact hfinishes hfin (operates?_of_dispatch hstack) (finishes_of_finish hdone)
  | goesOn hstack hfin hrunning =>
    exact hfinishes hfin (operates?_of_dispatch hstack) (finishes_of_finish hrunning)

/-- So does a whole step, apart from the slots of processes that go. -/
theorem spares_step (ht : m.ends t = false)
    (hkept : m.actor = t → ∀ tok, kept tok → m.operates? ≠ some tok ∧
      m.session.world.isReleased tok = false ∧
      (m.step.session.world.processes.get? tok).isSome = true)
    (hstill : ∀ s, still s → ∀ ctx c, m.nextCall? = some (ctx, .focus c) →
      ctx.focus ≠ .threadVars t s) :
    Spares kept still (m.session.world.thread t) (m.step.session.world.thread t) := by
  have hact : Spares kept still (m.session.world.thread t) (m.act.session.world.thread t) :=
    spares_turn (act_turn m) ht (fun hactor tok htok =>
      ⟨(hkept hactor tok htok).1, (hkept hactor tok htok).2.1⟩) hstill
  exact hact.trans (spares_sweep fun hactor tok htok => (hkept hactor.symm tok htok).2.2)

end Threads

/-! ## Other processes -/

/-- The next step leaves the process alone, with everything that belongs to it. -/
structure LeavesAlone (m : Machine) (tok : Token) : Prop where
  /-- The process is as it was, with its registry and its hooks, its phase, its flags and all its global
  variables. It may be started or dropped by a step that operates on no process. -/
  process : m.step.session.world.processes.get? tok = m.session.world.processes.get? tok ∨
    m.operates? = none ∧ (m.session.world.processes.get? tok = none ∨
      m.step.session.world.processes.get? tok = none)
  /-- It has no instance that it did not have, and those that it has are as they were. -/
  instances : ∀ id i, m.step.session.world.instances.get? id = some i → i.owner = tok →
    m.session.world.instances.get? id = some i
  /-- An instance of it that goes is one that nothing refers to. -/
  dropped : ∀ id i, m.session.world.instances.get? id = some i → i.owner = tok →
    m.step.session.world.instances.get? id = some i ∨
      id ∉ m.step.session.instances.values ∧ id ∉ m.step.heldIds ∧
        ∀ tok', m.step.session.world.registers tok' id = false
  /-- As long as its bindings are not void and it is there, every thread that goes on keeps for it what
  it kept: its binding, and the variables that wait for the next one. -/
  slots : ∀ t, m.ends t = false → m.session.world.isReleased tok = false →
    (m.step.session.world.processes.get? tok).isSome = true →
      (m.step.session.world.thread t).slots.get? tok = (m.session.world.thread t).slots.get? tok

/-- An instance that is marked dead is on the hands of the operation that marks it. -/
theorem mem_charges_of_finishing? {d : Dispatch} (hfin : m.finishing? = some d)
    (htask : ∀ as?, d.task ≠ .create as?) : (d.process, d.target) ∈ m.charges := by
  obtain ⟨job, below, hstack, -⟩ := act_of_finishing? hfin
  have htarget : d.target ∈ d.condemned := by
    unfold Dispatch.condemned
    split
    · next as? heq => exact absurd heq (htask as?)
    · exact List.mem_singleton_self _
    · exact List.mem_cons_self
  unfold charges
  rw [hstack, List.flatMap_cons]
  exact List.mem_append_left _ (List.mem_map.2 ⟨d.target, htarget, rfl⟩)

/-- A step proper does nothing to an instance but of the process that it operates on. -/
theorem instance_act {left : List (Token × InstanceId)} (h : (m.viewWith left).Sound) (id : InstanceId) :
    m.act.session.world.instances.get? id = m.session.world.instances.get? id ∨
      (∀ i, m.session.world.instances.get? id = some i → m.operates? = some i.owner) ∧
        ∀ i, m.act.session.world.instances.get? id = some i → m.operates? = some i.owner := by
  have hturn := instanceTurn_act m id
  generalize m.act.session.world.instances.get? id = i? at hturn
  -- an instance that stays has the owner that it had
  have hboth : ∀ {i i' : Instance}, m.session.world.instances.get? id = some i → i'.owner = i.owner →
      m.operates? = some i.owner → (∀ j, m.session.world.instances.get? id = some j →
        m.operates? = some j.owner) ∧ ∀ j : Instance, some i' = some j →
          m.operates? = some j.owner := by
    intro i i' hi howner hop
    refine ⟨fun j hj => ?_, fun j hj => ?_⟩
    · rw [hop, Option.some.inj (hi.symm.trans hj)]
    · rw [hop, ← Option.some.inj hj, howner]
  cases hturn with
  | same => exact .inl rfl
  | @vars ctx c i v hcall hfocus hi =>
    refine .inr (hboth hi rfl ?_)
    -- the variables in hand belong to the process that is operated on
    have hin : (m.opening ctx).inHand? ctx.focus =
        (m.session.world.instances.get? id).map (·.owner) := by
      rw [hfocus]
      rfl
    rw [operates?_of_nextCall? hcall]
    exact hin.trans (congrArg _ hi)
  | made hcall hproc hcreates hnew =>
    refine .inr ⟨fun i hi => ?_, fun i hi => ?_⟩
    · have hdrawn := (h.world.registry.instanceDrawn id i hi).1
      rw [hnew] at hdrawn
      exact absurd hdrawn (Nat.lt_irrefl _)
    · rw [operates?_of_process hcall hproc, ← Option.some.inj hi]
  | @marked d i hfin htask htarget hi =>
    refine .inr (hboth hi rfl ?_)
    obtain ⟨job, below, hstack, -⟩ := act_of_finishing? hfin
    have hcharge : (d.process, d.target) ∈ (m.viewWith left).charges :=
      List.mem_append_left _ (mem_charges_of_finishing? hfin htask)
    have howner : i.owner = d.process := (h.owners _ hcharge).2 i (htarget ▸ hi)
    rw [operates?_of_dispatch hstack, howner]

/-- What a sweep drops is what nothing refers to. -/
theorem dropped_of_sweep {i : Instance} (hi : m.act.session.world.instances.get? id = some i)
    (hnone : m.step.session.world.instances.get? id ≠ some i) :
    id ∉ m.step.session.instances.values ∧ id ∉ m.step.heldIds ∧
      ∀ tok, m.step.session.world.registers tok id = false := by
  have hsweep := instances_sweep m.act.session m.actor m.act.heldTokens m.act.heldIds id
  have hunreferred := Bool.eq_false_iff.2 fun hreferred =>
    hnone (hsweep.trans (Option.filter_eq_some_iff.2 ⟨hi, hreferred⟩))
  obtain ⟨hnamed, hregistries⟩ := Bool.or_eq_false_iff.1 hunreferred
  rw [List.contains_eq_mem, decide_eq_false_iff_not, List.mem_append, not_or] at hnamed
  refine ⟨hnamed.1, hnamed.2, fun tok => Bool.eq_false_iff.2 fun hreg => ?_⟩
  obtain ⟨p, hp, hmem⟩ := registers_iff.1 hreg
  rw [List.any_eq_false] at hregistries
  exact hregistries p (Table.mem_values.2 ⟨tok, hp⟩) (List.contains_iff_mem.2 hmem)

/-- An operation on another process drops no process. -/
theorem there_after_operation {p : Process} (hkept : m.Kept) (hop : m.operates? ≠ none)
    (hne : m.operates? ≠ some tok) (hp : m.session.world.processes.get? tok = some p)
    (hact : m.act.session.world.processes.get? tok = some p) :
    m.step.session.world.processes.get? tok = some p := by
  obtain ⟨hrefers, hheld⟩ := refers_turn (act_turn m) hop
  have hnames : m.act.session.processes = m.session.processes := hrefers.names
  have hinstalled : ∀ tok, m.session.world.installed? = some tok →
    m.act.session.world.installed? = some tok := hrefers.installed
  have htokens : m.act.scene.stack.flatMap Frame.tokens = m.act.heldTokens :=
    Frame.flatMap_shell Frame.tokens_shell _
  -- whatever kept the process in existence still does, so it is not among the lost ones
  have hnamed : tok ∈ m.act.session.processes.values ++ m.act.session.world.installed?.toList ++
      m.act.heldTokens := by
    rcases List.mem_append.1 (hkept.processes tok p hp) with hnamed | hunder
    · refine List.mem_append_left _ ?_
      rcases List.mem_append.1 hnamed with hname | hdefault
      · exact List.mem_append_left _ (hnames ▸ hname)
      · refine List.mem_append_right _ (Option.mem_toList.2 ?_)
        exact hinstalled tok (Option.mem_toList.1 hdefault)
    · exact List.mem_append_right _ (htokens ▸ hheld tok hunder hne)
  have hsweep := processes_sweep m.act.session m.actor m.act.heldTokens m.act.heldIds tok
  rw [if_neg fun hlost => (mem_lost.1 hlost).2 hnamed] at hsweep
  exact hsweep.trans hact

/-- A process that is there after a step was there before the sweep. -/
theorem processes_of_step (m : Machine) (tok : Token) :
    m.step.session.world.processes.get? tok = m.act.session.world.processes.get? tok ∨
      m.step.session.world.processes.get? tok = none := by
  have hsweep : m.step.session.world.processes.get? tok = _ := processes_sweep _ _ _ _ _
  rw [hsweep]
  split
  · exact .inr rfl
  · exact .inl rfl

/-- A step leaves alone every process that it does not operate on. -/
theorem leavesAlone_step {left : List (Token × InstanceId)} (h : (m.viewWith left).Sound)
    (hkept : m.Kept) (hne : m.operates? ≠ some tok) : m.LeavesAlone tok where
  process := by
    rcases processes_turn (act_turn m) hne with hsame | ⟨hop, rfl⟩
    · have hact : m.act.session.world.processes.get? tok = m.session.world.processes.get? tok := hsame
      rcases processes_of_step m tok with hstep | hgone
      · exact .inl (hstep.trans hact)
      · cases hp : m.session.world.processes.get? tok with
        | none => exact .inl hgone
        | some p =>
          -- the process goes by the sweep, which an operation on another one does not bring about
          refine .inr ⟨?_, .inr hgone⟩
          by_contra hop
          have hthere := there_after_operation hkept hop hne hp (hact.trans hp)
          rw [hgone] at hthere
          cases hthere
    · refine .inr ⟨hop, .inl (Option.eq_none_iff_forall_ne_some.2 fun p hp => ?_)⟩
      exact Nat.lt_irrefl _ (h.world.registry.tokenDrawn _ p hp)
  instances id i hi howner := by
    have hact := get?_of_step hi
    rcases instance_act h id with hsame | ⟨-, hown⟩
    · exact hsame.symm.trans hact
    · exact absurd (howner ▸ hown i hact) hne
  dropped id i hi howner := by
    have hact : m.act.session.world.instances.get? id = some i := by
      rcases instance_act h id with hsame | ⟨hown, -⟩
      · exact hsame.trans hi
      · exact absurd (howner ▸ hown i hi) hne
    by_cases hthere : m.step.session.world.instances.get? id = some i
    · exact .inl hthere
    · exact .inr (dropped_of_sweep hact hthere)
  slots t ht hrel hthere := by
    have hspares : Thread.Spares (· = tok) (fun _ => False) (m.session.world.thread t)
        (m.step.session.world.thread t) := by
      refine spares_step ht (fun _ tok' htok' => ?_) fun _ hs => hs.elim
      rw [htok']
      exact ⟨hne, hrel, hthere⟩
    exact hspares.slots tok rfl

end Machine

end TieredState
