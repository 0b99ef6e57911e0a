import TieredState.Proofs.Locks

/-!
# What a step does to dispatches

A dispatch calls the hooks of a process for one of its instances. The operation that begins it has put
the instance into the registry, or has taken it out; the hooks are listed as it begins. From then on
each of them is called in turn.

* `act_of_called?` — the step that calls a hook opens a body of the hook above its dispatch.
* `dispatchTurn_act` — all that an orderly step can do to registries and to the dispatches under way.
  The theorems on the dispatch of hooks are proved by cases on `DispatchTurn`.
* `Served.sameRegistries`, `Begins.registries` — what calls do to registries.
-/

namespace TieredState

/-! ## Dispatches under way -/

namespace Dispatch

/-- The event that the hooks are called for. -/
def event (d : Dispatch) : HookEvent :=
  match d.task with
  | .create _ => .created
  | .destroy | .shutdown _ _ => .destroyed

/-- The instances that a shutdown still has to come to when it is done with this one. -/
def awaiting (d : Dispatch) : List InstanceId :=
  match d.task with
  | .shutdown rest _ => rest
  | .create _ | .destroy => []

/-- How often the dispatch still has to come to an instance of a process. -/
def awaits (d : Dispatch) (tok : Token) (id : InstanceId) : Nat :=
  if d.process = tok then d.awaiting.count id else 0

/-- A dispatch that awaits nothing awaits no instance. -/
theorem awaits_of_nil {d : Dispatch} {tok : Token} {id : InstanceId} (h : d.awaiting = []) :
    d.awaits tok id = 0 := by
  unfold awaits
  rw [h, List.count_nil, ite_self]

/-- The dispatch is of an event of an instance in a process. -/
def concerns (d : Dispatch) (e : HookEvent) (tok : Token) (id : InstanceId) : Bool :=
  decide (d.event = e ∧ d.process = tok ∧ d.target = id)

/-- Whether a dispatch is of an event can be computed. -/
theorem concerns_iff {d : Dispatch} {e : HookEvent} {tok : Token} {id : InstanceId} :
    d.concerns e tok id = true ↔ d.event = e ∧ d.process = tok ∧ d.target = id :=
  decide_eq_true_iff

/-- The hooks still to be called, if the dispatch is of the event. -/
def remaining (d : Dispatch) (e : HookEvent) (tok : Token) (id : InstanceId) : List CallbackId :=
  if d.concerns e tok id then d.pending else []

/-- A dispatch that has called all its hooks has none left for any event. -/
theorem remaining_of_nil {d : Dispatch} {e : HookEvent} {tok : Token} {id : InstanceId}
    (h : d.pending = []) : d.remaining e tok id = [] := by
  unfold remaining
  rw [h, ite_self]

end Dispatch

def Frame.dispatches : Frame → List Dispatch
  | body _ => []
  | dispatch d _ => [d]

/-- The dispatch that is begun, if one is. -/
def Progress.running? : Progress → Option Dispatch
  | done _ _ => none
  | running d _ => some d

@[simp] theorem Frame.dispatches_shell (f : Frame) : f.shell.dispatches = f.dispatches := by
  cases f <;> rfl

namespace Machine

open Session

/-- The dispatches under way, the innermost first. -/
def dispatches (m : Machine) : List Dispatch := m.stack.flatMap Frame.dispatches

/-- The dispatch that the next step begins. -/
def begun? (m : Machine) : Option Dispatch :=
  match m.finishing? with
  | some d => (m.session.finish d).running?
  | none => m.nextCall?.bind fun (ctx, c) => ((m.opening ctx).call ctx c).running?

/-- The hook that the next step calls, with the dispatch in which it does. -/
def called? (m : Machine) : Option (Dispatch × CallbackId) :=
  match m.stack with
  | .dispatch d _ :: _ =>
    match d.pending with
    | c :: _ => if m.session.callbacks.contains c then some (d, c) else none
    | [] => none
  | _ => none

variable {m : Machine} {d : Dispatch} {id : CallbackId}

/-- The step that calls a hook takes it from those that the dispatch still has to call. Above the
dispatch it opens a body of the hook, on the instance of the dispatch; where the hook has no steps to
run, the call is told and is over. Nothing else of the session changes. -/
theorem act_of_called? (h : m.called? = some (d, id)) : ∃ c rest job below,
    m.session.callbacks.get? id = some c ∧ d.pending = id :: rest ∧
    m.stack = .dispatch d job :: below ∧
    m.act.stack = c.bodies d ++ .dispatch { d with pending := rest } job :: below ∧
    m.act.session = if c.runs then m.session.called id c
      else (m.session.called id c).tell c.tag d.target none := by
  -- a hook is called by the dispatch on top of the stack, if its code is there
  unfold called? at h
  split at h
  · next d' job below hstack =>
    split at h
    · next id' rest hpending =>
      obtain ⟨hthere, heq⟩ := Option.ite_none_right_eq_some.1 h
      obtain ⟨rfl, rfl⟩ := Prod.mk.inj (Option.some.inj heq)
      obtain ⟨c, hc⟩ : ∃ c, m.session.callbacks.get? id' = some c := Option.isSome_iff_exists.1 hthere
      refine ⟨c, rest, job, below, hc, hpending, hstack, ?_⟩
      unfold act
      rw [hstack]
      dsimp only
      unfold advance Callback.bodies
      rw [hpending]
      dsimp only
      rw [hc]
      dsimp only
      cases c.runs <;> exact ⟨rfl, rfl⟩
    · cases h
  · cases h

end Machine

/-! ## Registries that stay as they are -/

namespace World

variable {w w' w'' : World} {t : ThreadId} {tok : Token} {id : InstanceId} {out : List InstanceId}

/-- The same instances are registered with the same processes. -/
def SameRegistries (w w' : World) : Prop := ∀ tok id, w'.registers tok id = w.registers tok id

namespace SameRegistries

theorem refl (w : World) : SameRegistries w w := fun _ _ => rfl

theorem trans (h : SameRegistries w w') (h' : SameRegistries w' w'') : SameRegistries w w'' :=
  fun tok id => (h' tok id).trans (h tok id)

theorem of_eq (h : w'.processes = w.processes) : SameRegistries w w' := by
  intro tok id
  unfold registers
  rw [h]

theorem calm (h : Calm w w') : SameRegistries w w' := by
  have key : ∀ {v v' : World}, Calm v v' → ∀ {tok id}, v'.registers tok id = true →
      v.registers tok id = true := by
    intro v v' hcalm tok id hreg
    obtain ⟨p', hp', hmem⟩ := registers_iff.1 hreg
    obtain ⟨p, hp, -, -, hsame, -⟩ := hcalm.process_of hp'
    exact registers_iff.2 ⟨p, hp, hsame ▸ hmem⟩
  exact fun tok id => Bool.eq_iff_iff.2 ⟨key h, key h.symm⟩

/-- A change of a process keeps registries if it keeps that of the process. -/
theorem of_modifyProcess {f : Process → Process} (h : ∀ p, (f p).registry = p.registry) :
    SameRegistries w (w.modifyProcess tok f) := by
  intro tok' id
  unfold registers
  rw [get?_modifyProcess]
  split
  · cases w.processes.get? tok' with
    | none => rfl
    | some p => simp [h]
  · rfl

/-- A process that is started has no instances, so registries stay. -/
theorem start (h : RegistrySound w out) (c : Config) : SameRegistries w (w.start c).2 := by
  intro tok id
  unfold registers
  rw [get?_start]
  split
  · next heq =>
    -- the token is new, so it was no process's
    have hnone : w.processes.get? tok = none := by
      refine Option.eq_none_iff_forall_ne_some.2 fun p hp => ?_
      have hdrawn := h.tokenDrawn tok p hp
      rw [heq] at hdrawn
      exact Nat.lt_irrefl _ hdrawn
    rw [hnone]
    rfl
  · rfl

theorem endUses {ended : List (ThreadId × StorageId)} (h : Machine.EndUses w ended w') :
    SameRegistries w w' := by
  induction h with
  | done hc => exact calm hc
  | calm hc _ ih => exact (calm hc).trans ih
  | storage _ ih => exact (of_eq rfl).trans ih

/-- Registries stay at the end of an instance, which was taken from its registry before. -/
theorem tearDown (w : World) (t : ThreadId) (tok : Token) (id : InstanceId) :
    SameRegistries w (w.tearDown t tok id) := of_eq (processes_tearDown w t tok id)

theorem releaseKey (w : World) (t : ThreadId) (tok : Token) :
    SameRegistries w (w.releaseKey t tok) := by
  have hrelease : SameRegistries w (w.modifyProcess tok fun p => { p with released := true }) :=
    of_modifyProcess fun _ => rfl
  exact hrelease.trans (of_eq rfl)

end SameRegistries

/-! ## Registries that change -/

/-- An instance that is enrolled is registered with its process, and all others as they were. -/
theorem registers_enrolled {p : Process} (hp : w.live tok = .ok p) (parent? : Option InstanceId)
    (tok' : Token) (id : InstanceId) : (w.enrolled tok parent?).registers tok' id = true ↔
      (tok' = tok ∧ id = ⟨w.nextInstance⟩) ∨ w.registers tok' id = true := by
  rw [registers_iff, registers_iff]
  constructor
  · rintro ⟨p', hp', hmem⟩
    rcases get?_enrolled_eq_some.1 hp' with ⟨rfl, q, hq, rfl⟩ | ⟨-, hp'⟩
    · rcases Registry.mem_insertAscending.1 hmem with rfl | hmem
      · exact .inl ⟨rfl, rfl⟩
      · exact .inr ⟨q, hq, hmem⟩
    · exact .inr ⟨p', hp', hmem⟩
  · have hnew : (w.enrolled tok parent?).processes.get? tok = some (p.register ⟨w.nextInstance⟩) :=
      get?_enrolled_eq_some.2 (.inl ⟨rfl, p, (live_ok.1 hp).1, rfl⟩)
    rintro (⟨rfl, rfl⟩ | ⟨q, hq, hmem⟩)
    · exact ⟨_, hnew, Registry.mem_insertAscending.2 (.inl rfl)⟩
    · by_cases htok : tok' = tok
      · subst htok
        obtain rfl := Option.some.inj (hq.symm.trans (live_ok.1 hp).1)
        exact ⟨_, hnew, Registry.mem_insertAscending.2 (.inr hmem)⟩
      · exact ⟨q, get?_enrolled_eq_some.2 (.inr ⟨htok, hq⟩), hmem⟩

/-- Members of one registry go, those of the others stay. -/
theorem registers_modifyProcess {f : Process → Process} {gone : List InstanceId}
    (h : ∀ p, w.processes.get? tok = some p →
      ∀ id, id ∈ (f p).registry.members ↔ id ∈ p.registry.members ∧ id ∉ gone)
    (tok' : Token) (id : InstanceId) : (w.modifyProcess tok f).registers tok' id = true ↔
      w.registers tok' id = true ∧ ¬(tok' = tok ∧ id ∈ gone) := by
  rw [registers_iff, registers_iff]
  constructor
  · rintro ⟨p', hp', hmem⟩
    rcases (get?_modifyProcess_eq_some _ _ _).1 hp' with ⟨rfl, p, hp, rfl⟩ | ⟨hne, hp⟩
    · obtain ⟨hmem, hnot⟩ := (h p hp id).1 hmem
      exact ⟨⟨p, hp, hmem⟩, fun hgone => hnot hgone.2⟩
    · exact ⟨⟨p', hp, hmem⟩, fun hgone => hne hgone.1⟩
  · rintro ⟨⟨p, hp, hmem⟩, hnot⟩
    by_cases htok : tok' = tok
    · subst htok
      exact ⟨f p, (get?_modifyProcess_eq_some _ _ _).2 (.inl ⟨rfl, p, hp, rfl⟩),
        (h p hp id).2 ⟨hmem, fun hgone => hnot ⟨rfl, hgone⟩⟩⟩
    · exact ⟨p, (get?_modifyProcess_eq_some _ _ _).2 (.inr ⟨htok, hp⟩), hmem⟩

/-- Hooks stay listed if a change of a process keeps its hooks. -/
theorem listed_modifyProcess {f : Process → Process} (h : ∀ p, (f p).hooks = p.hooks) (tok' : Token)
    (e : HookEvent) : (w.modifyProcess tok f).listed tok' e = w.listed tok' e := by
  unfold listed
  rw [get?_modifyProcess]
  split
  · cases w.processes.get? tok' with
    | none => rfl
    | some p => simp [h]
  · rfl

theorem listed_congr (h : w'.processes = w.processes) (tok : Token) (e : HookEvent) :
    w'.listed tok e = w.listed tok e := by
  unfold listed
  rw [h]

end World

/-! ## Calls -/

namespace Session

open World

variable {s s' : Session} {ctx : Context} {t : ThreadId} {tok : Token} {out : List InstanceId}

/-- What is done at once registers nothing and removes nothing, unless it changes a registry past
every check. -/
theorem Served.sameRegistries {c : Call} {o : Outcome} (h : s.Served ctx c o s')
    (hedit : c.editsRegistry = false) (hs : RegistrySound s.world out) :
    SameRegistries s.world s'.world := by
  cases h with
  | plain _ =>
    rcases plainCall_cases s ctx hedit with hcalm | ⟨config, hcalm⟩ | ⟨name, rfl, hworld⟩
    · exact .calm hcalm
    · exact (SameRegistries.start hs config).trans (.calm hcalm)
    · rw [hworld]
      exact .of_eq (local_withoutThread _ _).processes
  | @process p c tok q hproc hq hc =>
    rcases plainProcessCall_cases s ctx tok q c with
      hcalm | ⟨i, as?, id, rfl, -, hworld⟩ | ⟨id?, rfl, hr⟩
    · exact .calm hcalm
    · rw [hworld]
      exact .of_eq (local_bind _ _ _ _).processes
    · exact .of_eq (local_release hr).processes
  | refused f => exact .refl _
  | drawn _ _ => exact .of_eq rfl
  | @shutdown p tok w hproc hbegin =>
    -- a shutdown that is over at once found no members, so nothing is drained
    obtain ⟨q, hq, hids, rfl⟩ := beginShutdown_ok hbegin
    have hempty : q.registry.members = [] := by
      rw [← List.reverse_eq_nil_iff, ← hids]
    have hdrain : SameRegistries s.world (s.world.modifyProcess tok (drained q.registry)) := by
      intro tok' id
      have hnone : ∀ q', s.world.processes.get? tok = some q' → ∀ id,
          id ∈ (drained q.registry q').registry.members ↔ id ∈ q'.registry.members ∧ id ∉ [] := by
        intro q' hq' id
        obtain rfl := Option.some.inj ((live_ok.1 hq).1.symm.trans hq')
        rw [hempty]
        simp [drained, Registry.drain]
      exact Bool.eq_iff_iff.2 ((registers_modifyProcess hnone tok' id).trans (by simp))
    exact hdrain.trans (.releaseKey _ _ _)

/-- How an operation begins, in terms of its first dispatch: the instance has been registered, or it
has been taken from the registry with those that it is torn down with. -/
theorem Begins.registries {d : Dispatch} (h : s.Begins t tok d s') (hs : RegistrySound s.world out) :
    d.process = tok ∧ d.pending = s.world.listed d.process d.event ∧
    ((d.event = .created ∧ d.awaiting = [] ∧ d.target = ⟨s.world.nextInstance⟩ ∧
        s'.world.nextInstance = s.world.nextInstance + 1 ∧
        ∀ tok id, s'.world.registers tok id = true ↔
          (tok = d.process ∧ id = d.target) ∨ s.world.registers tok id = true) ∨
      (d.event = .destroyed ∧ (d.target :: d.awaiting).Nodup ∧
        (∀ id ∈ d.target :: d.awaiting, s.world.registers d.process id = true) ∧
        ∀ tok id, s'.world.registers tok id = true ↔
          s.world.registers tok id = true ∧ ¬(tok = d.process ∧ id ∈ d.target :: d.awaiting))) := by
  cases h with
  | @create parent? id w as? henroll =>
    obtain ⟨-, rfl, rfl⟩ := mayTake_of_enroll henroll
    rcases enroll_cases s.world t tok parent? with ⟨e, heq⟩ | ⟨e, heq⟩ | ⟨p, hp, -, -⟩
    · rw [heq] at henroll
      cases henroll
    · rw [heq] at henroll
      cases henroll
    · refine ⟨rfl, ?_, .inl ⟨rfl, rfl, rfl, rfl, registers_enrolled hp parent?⟩⟩
      exact listed_modifyProcess (w := s.world.draw) (f := (·.register ⟨s.world.nextInstance⟩))
        (fun _ => rfl) tok .created
  | @destroy id w hwithdraw =>
    obtain ⟨p, hp, -, hmem, rfl⟩ := withdraw_ok hwithdraw
    refine ⟨rfl, listed_modifyProcess (f := withdrawn id) (fun _ => rfl) _ _,
      .inr ⟨rfl, List.nodup_singleton id, ?_, ?_⟩⟩
    · intro id' hid'
      obtain rfl := List.mem_singleton.1 hid'
      exact registers_iff.2 ⟨p, (live_ok.1 hp).1, hmem⟩
    · refine registers_modifyProcess fun q _ id' => ?_
      show id' ∈ q.registry.members.filter (· ≠ id) ↔ _ ∧ id' ∉ [id]
      rw [List.mem_filter, List.mem_singleton, decide_eq_true_eq]
  | @shutdown id rest w hbegin =>
    obtain ⟨p, hp, hids, rfl⟩ := beginShutdown_ok hbegin
    have hget := (live_ok.1 hp).1
    have hmem : ∀ id', id' ∈ id :: rest ↔ id' ∈ p.registry.members := by
      intro id'
      rw [hids, List.mem_reverse]
    refine ⟨rfl, listed_modifyProcess (f := drained p.registry) (fun _ => rfl) _ _,
      .inr ⟨rfl, ?_, ?_, ?_⟩⟩
    · show (id :: rest).Nodup
      rw [hids]
      exact List.nodup_reverse.2 (hs.ascending tok p hget).nodup
    · exact fun id' hid' => registers_iff.2 ⟨p, hget, (hmem id').1 hid'⟩
    · refine registers_modifyProcess fun q hq id' => ?_
      obtain rfl := Option.some.inj (hget.symm.trans hq)
      show id' ∈ [] ↔ id' ∈ p.registry.members ∧ id' ∉ id :: rest
      rw [hmem]
      simp

/-- Only a destruction and a shutdown begin the dispatch of a destruction. -/
theorem call_destroyed {p : Name} {c : ProcessCall} {d : Dispatch}
    (h : s.call ctx (.process p c) = .running d s') (hevent : d.event = .destroyed) :
    c = .shutdown ∨ ∃ i, c = .destroy i ∧ s.instanceNamed ctx i = .ok d.target ∧ d.awaiting = [] := by
  -- what creates an instance goes on to the hooks of its creation
  have hcreate : ∀ tok as? r, s.beginCreate ctx.thread tok as? r ≠ .running d s' := by
    intro tok as? r hrunning
    unfold beginCreate at hrunning
    split at hrunning
    · cases hrunning
    · dsimp only at hrunning
      split at hrunning
      · cases hrunning
      · obtain ⟨rfl, -⟩ := Progress.running.inj hrunning
        cases hevent
  unfold call at h
  dsimp only at h
  split at h
  · cases c with
    | shutdown => exact .inl rfl
    | destroy i =>
      simp only [processCall, beginDestroy] at h
      split at h
      · cases h
      · next id hname =>
        split at h
        · cases h
        · obtain ⟨rfl, -⟩ := Progress.running.inj h
          refine .inr ⟨i, rfl, ?_⟩
          unfold beginTearDown
          split <;> exact ⟨hname, rfl⟩
    | create as? => exact absurd h (hcreate _ _ _)
    | spawn parent as? =>
      simp only [processCall] at h
      split at h
      · cases h
      · exact absurd h (hcreate _ _ _)
    | _ =>
      simp only [processCall] at h
      split at h <;> cases h
  · cases h

/-- An operation leaves registries alone when hooks have run. -/
theorem Finishes.sameRegistries {d : Dispatch} {p : Progress} (h : s.Finishes d p) :
    SameRegistries s.world p.session.world := by
  have htear := SameRegistries.tearDown s.world d.thread d.process d.target
  cases h with
  | create htask =>
    show SameRegistries s.world (s.keepInstance _ d.target).world
    rw [world_keepInstance]
    exact .refl _
  | destroy htask | next htask => exact htear
  | shutdown htask => exact htear.trans (.releaseKey _ _ _)

/-- An operation that ends has no instance left to come to. -/
theorem awaiting_of_done {d : Dispatch} {o : Outcome} (h : s.Finishes d (.done o s')) :
    d.awaiting = [] := by
  unfold Dispatch.awaiting
  cases h with
  | create htask | destroy htask | shutdown htask => rw [htask]

end Session

/-! ## Steps -/

namespace Machine

open World Session

variable {m : Machine}

/-- The next step calls for the destruction of the instance, or for the shutdown of its process. -/
inductive Removes (m : Machine) (tok : Token) (id : InstanceId) : Prop
  | destroy {ctx : Context} {p i : Name}
    (hcall : m.nextCall? = some (ctx, .process p (.destroy i)))
    (hproc : m.session.process p = .ok tok) (hname : m.session.instanceNamed ctx i = .ok id)
  | shutdown {ctx : Context} {p : Name} (hcall : m.nextCall? = some (ctx, .process p .shutdown))
    (hproc : m.session.process p = .ok tok)

/-- What is listed to be called can be called: the code of every hook is there. -/
structure Ready (m : Machine) : Prop where
  pending : ∀ d ∈ m.dispatches, ∀ c ∈ d.pending, m.session.callbacks.contains c = true
  listed : ∀ tok e, ∀ c ∈ m.session.world.listed tok e, m.session.callbacks.contains c = true

/-- What a step does to registries and to the dispatches under way. -/
inductive DispatchTurn (m : Machine) : Prop
  | still (hbegun : m.begun? = none) (hcalled : m.called? = none)
    (hact : m.act.dispatches = m.dispatches)
    (hregs : SameRegistries m.session.world m.act.session.world)
  /-- An instance is registered. -/
  | creates {d : Dispatch} (hbegun : m.begun? = some d) (hcalled : m.called? = none)
    (hact : m.act.dispatches = d :: m.dispatches)
    (hpending : d.pending = m.session.world.listed d.process d.event)
    (hevent : d.event = .created) (hawait : d.awaiting = [])
    (hnew : d.target = ⟨m.session.world.nextInstance⟩)
    (hnext : m.act.session.world.nextInstance = m.session.world.nextInstance + 1)
    (hregs : ∀ tok id, m.act.session.world.registers tok id = true ↔
      (tok = d.process ∧ id = d.target) ∨ m.session.world.registers tok id = true)
  /-- An instance is taken from its registry, with those that it is torn down with. -/
  | removes {d : Dispatch} (hbegun : m.begun? = some d) (hcalled : m.called? = none)
    (hact : m.act.dispatches = d :: m.dispatches)
    (hpending : d.pending = m.session.world.listed d.process d.event)
    (hevent : d.event = .destroyed) (hnodup : (d.target :: d.awaiting).Nodup)
    (hcall : ∀ id ∈ d.target :: d.awaiting, m.Removes d.process id)
    (hmem : ∀ id ∈ d.target :: d.awaiting, m.session.world.registers d.process id = true)
    (hregs : ∀ tok id, m.act.session.world.registers tok id = true ↔
      m.session.world.registers tok id = true ∧ ¬(tok = d.process ∧ id ∈ d.target :: d.awaiting))
  | calls {d : Dispatch} {ds : List Dispatch} {c : CallbackId} {rest : List CallbackId}
    (hbegun : m.begun? = none) (hcalled : m.called? = some (d, c)) (hstack : m.dispatches = d :: ds)
    (hpending : d.pending = c :: rest) (hact : m.act.dispatches = { d with pending := rest } :: ds)
    (hregs : SameRegistries m.session.world m.act.session.world)
  | finishes {d : Dispatch} {ds : List Dispatch} (hbegun : m.begun? = none)
    (hcalled : m.called? = none) (hstack : m.dispatches = d :: ds) (hpending : d.pending = [])
    (hawait : d.awaiting = []) (hact : m.act.dispatches = ds)
    (hregs : SameRegistries m.session.world m.act.session.world)
  /-- A shutdown comes to the next instance. -/
  | goesOn {d d' : Dispatch} {ds : List Dispatch} (hbegun : m.begun? = some d')
    (hcalled : m.called? = none) (hstack : m.dispatches = d :: ds) (hpending : d.pending = [])
    (hact : m.act.dispatches = d' :: ds)
    (hpending' : d'.pending = m.session.world.listed d'.process d'.event)
    (hevent : d'.event = .destroyed) (hprocess : d'.process = d.process)
    (hawait : d.awaiting = d'.target :: d'.awaiting)
    (hregs : SameRegistries m.session.world m.act.session.world)

/-- The dispatch on top is the innermost one. -/
theorem dispatches_of_dispatch {d : Dispatch} {job : Bool} {below : List Frame}
    (hstack : m.stack = .dispatch d job :: below) :
    m.dispatches = d :: below.flatMap Frame.dispatches := by
  unfold dispatches
  rw [hstack]
  rfl

/-- While the code under way has a step to take, no dispatch goes on. -/
theorem idle_of_next? {r : Context × Step} (h : m.next? = some r) :
    m.finishing? = none ∧ m.called? = none := by
  unfold next? at h
  unfold finishing? called?
  cases hstack : m.stack with
  | nil => exact ⟨rfl, rfl⟩
  | cons f below =>
    rw [hstack] at h
    cases f with
    | body b => exact ⟨rfl, rfl⟩
    | dispatch d job => cases h

/-- A call begins the dispatch that it runs, and calls no hook itself. -/
theorem begun_of_nextCall? {ctx : Context} {c : Call} (h : m.nextCall? = some (ctx, c)) :
    m.begun? = ((m.opening ctx).call ctx c).running? ∧ m.called? = none := by
  obtain ⟨on?, hnext⟩ := next?_of_nextCall? h
  obtain ⟨hfin, hcalled⟩ := idle_of_next? hnext
  unfold begun?
  rw [hfin, h]
  exact ⟨rfl, hcalled⟩

/-- Only a call begins a dispatch. -/
theorem begun_of_next? {ctx : Context} {step : Step} (hnext : m.next? = some (ctx, step))
    (hstep : ∀ on? c, step = .call on? c → ((m.opening ctx).call ctx c).running? = none) :
    m.begun? = none ∧ m.called? = none := by
  cases step with
  | call on? c =>
    obtain ⟨hbegun, hcalled⟩ := begun_of_nextCall? (nextCall?_of_call hnext)
    exact ⟨hbegun.trans (hstep on? c rfl), hcalled⟩
  | _ =>
    obtain ⟨hfin, hcalled⟩ := idle_of_next? hnext
    unfold begun? nextCall?
    rw [hfin, hnext]
    exact ⟨rfl, hcalled⟩

/-- A dispatch whose hooks have all been called goes on to the one that its operation runs next. -/
theorem begun_of_finishing? {d : Dispatch} (h : m.finishing? = some d) :
    m.begun? = (m.session.finish d).running? ∧ m.called? = none ∧ d.pending = [] := by
  -- a dispatch on top without pending hooks is what is finishing, and it calls none
  have hcalled : m.called? = none ∧ d.pending = [] := by
    unfold finishing? at h
    unfold called?
    cases hstack : m.stack with
    | nil =>
      rw [hstack] at h
      cases h
    | cons f below =>
      rw [hstack] at h
      cases f with
      | body b => cases h
      | dispatch d' job =>
        obtain ⟨hpending, heq⟩ := Option.ite_none_right_eq_some.1 h
        obtain rfl := Option.some.inj heq
        dsimp only
        rw [hpending]
        exact ⟨rfl, rfl⟩
  unfold begun?
  rw [h]
  exact ⟨rfl, hcalled⟩

/-- Of a scene that a step comes to, what the dispatches are. -/
theorem act_of_scene {s : Session} {stack : List Frame} (h : m.act.scene = .of s stack) :
    m.act.dispatches = stack.flatMap Frame.dispatches ∧ m.act.session.world = s.world :=
  ⟨flatMap_of_scene Frame.dispatches_shell h, congrArg (·.session.world) h⟩

/-- A step that leaves the dispatches alone. -/
theorem still_of_scene {s : Session} {stack : List Frame} (h : m.act.scene = .of s stack)
    (hnone : m.begun? = none ∧ m.called? = none) (hstack : stack.flatMap Frame.dispatches = m.dispatches)
    (hregs : SameRegistries m.session.world s.world) : DispatchTurn m := by
  obtain ⟨hdispatches, hworld⟩ := act_of_scene h
  exact .still hnone.1 hnone.2 (hdispatches.trans hstack) (hworld ▸ hregs)

/-- The step is a call that begins an operation. What it has done to the registry tells which. -/
theorem dispatchTurn_begins {ctx : Context} {p : Name} {c : ProcessCall} {tok : Token} {d : Dispatch}
    {s : Session} {job : Bool} (hs : m.Sound) (hcall : m.nextCall? = some (ctx, .process p c))
    (hproc : m.session.process p = .ok tok)
    (hrunning : (m.opening ctx).call ctx (.process p c) = .running d s)
    (hbegins : (m.opening ctx).Begins ctx.thread tok d s)
    (hsc : m.act.scene = .of s (.dispatch d job :: m.stack)) : DispatchTurn m := by
  obtain ⟨hbegun, hcalled⟩ := begun_of_nextCall? hcall
  rw [hrunning] at hbegun
  obtain ⟨hact, hworld⟩ := act_of_scene hsc
  have hsound := hs.registry.calm (calm_setThread_thread m.session.world ctx.thread)
  obtain ⟨hprocess, hpending, ⟨hevent, hawait, hnew, hnext, hregs⟩ | ⟨hevent, hnodup, hmem, hregs⟩⟩ :=
    hbegins.registries hsound
  · exact .creates hbegun hcalled hact hpending hevent hawait hnew (hworld ▸ hnext) (hworld ▸ hregs)
  · refine .removes hbegun hcalled hact hpending hevent hnodup (fun id hid => ?_) hmem (hworld ▸ hregs)
    rw [hprocess]
    rcases call_destroyed hrunning hevent with rfl | ⟨i, rfl, hname, hawait⟩
    · exact .shutdown hcall hproc
    · -- a destruction is for one instance only
      rw [hawait] at hid
      obtain rfl := List.mem_singleton.1 hid
      exact .destroy hcall hproc hname

/-- The step calls a hook. -/
theorem dispatchTurn_calls {d : Dispatch} {job : Bool} {below : List Frame} {id : CallbackId}
    {rest : List CallbackId} {c : Callback} (hstack : m.stack = .dispatch d job :: below)
    (hpending : d.pending = id :: rest) (hcallback : m.session.callbacks.get? id = some c)
    (hsc : m.act.scene = .of (m.session.called id c)
      (c.bodies d ++ .dispatch { d with pending := rest } job :: below)) : DispatchTurn m := by
  have hnone : m.begun? = none ∧ m.called? = some (d, id) := by
    unfold begun? called? finishing? Table.contains
    rw [nextCall?_of_none (next?_of_dispatch hstack), hstack]
    dsimp only
    rw [hpending]
    dsimp only
    rw [hcallback]
    exact ⟨rfl, rfl⟩
  obtain ⟨hact, hworld⟩ := act_of_scene hsc
  -- the body of the hook is no dispatch
  have hbodies : (c.bodies d).flatMap Frame.dispatches = [] := by
    unfold Callback.bodies
    split <;> rfl
  rw [List.flatMap_append, hbodies, List.nil_append] at hact
  exact .calls hnone.1 hnone.2 (dispatches_of_dispatch hstack) hpending hact (hworld ▸ .of_eq rfl)

/-- The step comes to the next instance of a shutdown. -/
theorem dispatchTurn_goesOn {d d' : Dispatch} {job : Bool} {below : List Frame} {s : Session}
    (heased : m.Eased) (hstack : m.stack = .dispatch d job :: below) (hfin : m.finishing? = some d)
    (hrunning : m.session.finish d = .running d' s)
    (hsc : m.act.scene = .of s (.dispatch d' job :: below)) : DispatchTurn m := by
  obtain ⟨hbegun, hcalled, hpending⟩ := begun_of_finishing? hfin
  obtain ⟨hact, hworld⟩ := act_of_scene hsc
  -- the hooks of the next instance can be listed, as no lock of theirs is held
  rcases finish_cases (able_of_eased heased hstack).1 with
    ⟨a, s', hfinish, -⟩ | ⟨id, rest, count, htask, hfinish⟩
  · rw [hrunning] at hfinish
    cases hfinish
  · rw [hrunning] at hfinish hbegun
    obtain ⟨rfl, rfl⟩ := Progress.running.inj hfinish
    refine .goesOn hbegun hcalled (dispatches_of_dispatch hstack) hpending hact ?_ rfl rfl ?_
      (hworld ▸ .tearDown _ _ _ _)
    · exact listed_congr (processes_tearDown _ _ _ _) _ _
    · unfold Dispatch.awaiting
      rw [htask]

/-- Every orderly step is a turn of dispatches. -/
theorem dispatchTurn_act (hok : m.orderly = true) (hs : m.Sound) (heased : m.Eased)
    (hready : m.Ready) : DispatchTurn m := by
  have hopening : ∀ ctx, SameRegistries m.session.world (m.opening ctx).world := fun _ => .of_eq rfl
  have hturn := act_turn m
  generalize hsc : m.act.scene = sc at hturn
  cases hturn with
  | idle hstack hnext =>
    have hnone : m.begun? = none ∧ m.called? = none := by
      unfold begun? called? finishing?
      rw [nextCall?_of_none hnext, hstack]
      exact ⟨rfl, rfl⟩
    exact still_of_scene hsc hnone rfl (.refl _)
  | @served ctx c o s hcall hdone hserved =>
    obtain ⟨hbegun, hcalled⟩ := begun_of_nextCall? hcall
    rw [hdone] at hbegun
    have hsame := hserved.sameRegistries (editsRegistry_of_orderly hok hcall)
      (hs.registry.calm (calm_setThread_thread _ _))
    exact still_of_scene hsc ⟨hbegun, hcalled⟩ rfl ((hopening ctx).trans hsame)
  | begins job hcall hproc hrunning hbegins =>
    exact dispatchTurn_begins hs hcall hproc hrunning hbegins hsc
  | @refused ctx step hnext hcall =>
    refine still_of_scene hsc (begun_of_next? hnext fun on? c heq => ?_) rfl (hopening ctx)
    subst heq
    -- what is refused is the failure of a worker
    obtain rfl := hcall c (nextCall?_of_call hnext)
    rfl
  | @opens ctx on? o steps b s job hnext hent =>
    have hentered : SameRegistries (m.opening ctx).world s.world := by
      cases entered_of_enter hent with
      | lock focus tokens ids htake => exact .calm (calm_take htake)
      | storage tokens hborrow => exact .of_eq (borrow_ok hborrow).frame.processes
      | attempt => exact .refl _
    exact still_of_scene hsc (begun_of_next? hnext nofun) rfl ((hopening ctx).trans hentered)
  | @registers ctx on? r steps hnext =>
    exact still_of_scene hsc (begun_of_next? hnext nofun) rfl
      ((hopening ctx).trans (.calm (calm_registerHook _ _ _ _)))
  | @fails ctx hnext =>
    have hnone := begun_of_next? hnext fun on? c heq => by
      obtain ⟨-, rfl⟩ := Step.call.inj heq
      rfl
    obtain ⟨ended, -, hend⟩ := endUses_unwind (m.opening ctx) m.stack
    exact still_of_scene hsc hnone
      (flatMap_unwind (f := Frame.dispatches) (fun _ => rfl) _ _ (unwindsHook_of_orderly hok hnext))
      ((hopening ctx).trans (.endUses hend))
  | @closes b below hstack hpending =>
    have hnone : m.begun? = none ∧ m.called? = none := by
      unfold begun? called? finishing?
      rw [nextCall?_of_none (next?_of_done hstack hpending), hstack]
      exact ⟨rfl, rfl⟩
    have hundo := endUses_undo m.session b (.done (.refl _))
    refine still_of_scene hsc hnone ?_ (.endUses hundo)
    unfold dispatches
    rw [hstack]
    rfl
  | @skips d job below c rest hstack hpending hnocode =>
    -- the code of a hook that is listed is there
    have hcode := hready.pending d (by rw [dispatches_of_dispatch hstack]; exact List.mem_cons_self) c
      (by rw [hpending]; exact List.mem_cons_self)
    unfold Table.contains at hcode
    rw [hnocode] at hcode
    cases hcode
  | calls hstack hpending hcallback => exact dispatchTurn_calls hstack hpending hcallback hsc
  | @finishes d job below o s hstack hfin hdone =>
    obtain ⟨hbegun, hcalled, hpending⟩ := begun_of_finishing? hfin
    rw [hdone] at hbegun
    obtain ⟨hact, hworld⟩ := act_of_scene hsc
    have hfinishes := finishes_of_finish hdone
    exact .finishes hbegun hcalled (dispatches_of_dispatch hstack) hpending
      (awaiting_of_done hfinishes) hact (hworld ▸ hfinishes.sameRegistries)
  | goesOn hstack hfin hrunning => exact dispatchTurn_goesOn heased hstack hfin hrunning hsc

end Machine

end TieredState
