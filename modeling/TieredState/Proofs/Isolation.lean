import TieredState.Proofs.Confinement
import TieredState.Proofs.Openings
import TieredState.Proofs.Refusals
import TieredState.Proofs.Retention

/-!
# Isolation

All processes share one counter of identities, one table of slots on each thread and one list of held
locks. Still what belongs to one of them is out of the reach of the others. `Isolated` says it of one
step at any point of a run: where the variables of an instance and those of a binding can be written
from, and that a step leaves alone every process that it does not operate on.

* `gives_instance`, `gives_binding` — what a closure has in hand was given to it when it was opened.
* `isolation` — every step of every run is isolated.
-/

namespace TieredState

namespace Machine

open World Session Thread

variable {allowed : Machine → Bool} {m m' m₀ : Machine} {past : List Machine} {ctx ctx₀ : Context}
  {o : Opening} {t : ThreadId} {tok : Token} {id : InstanceId} {b : Binding}

/-- The next step neither ends a thread with code under way nor changes a registry past every check. -/
def regular (m : Machine) : Bool := m.settled && m.unedited

/-- A regular step is settled. -/
theorem settled_of_regular (h : m.regular = true) : m.settled = true := (Bool.and_eq_true_iff.1 h).1

/-- A regular step edits no registry. -/
theorem unedited_of_regular (h : m.regular = true) : m.unedited = true := (Bool.and_eq_true_iff.1 h).2

/-! ## Where variables are written from -/

/-- The next step is a call of a closure that has `focus` in hand. It was opened as `o` at `m₀` by the
code with the context `ctx₀`. -/
structure CalledFrom (past : List Machine) (m : Machine) (focus : Focus) (m₀ : Machine) (ctx₀ : Context)
    (o : Opening) : Prop where
  call : ∃ ctx c, m.nextCall? = some (ctx, .focus c) ∧ ctx.focus = focus
  closure : ∃ b below, closureOf m.frames = some (b, below) ∧ b.context.focus = focus ∧
    OpenedAt past b below m₀ ctx₀ o

/-- What is opened is the instance `id` of the process `tok`: by a reference to it, or as the instance
that the thread is bound to under the process. -/
inductive GivesInstance (m₀ : Machine) (ctx₀ : Context) (tok : Token) (id : InstanceId) : Opening → Prop
  | reference {n : Name} (hname : m₀.session.instanceNamed ctx₀ n = .ok id) :
    GivesInstance m₀ ctx₀ tok id (.ofInstance n)
  | current {p : Name} (hproc : m₀.session.process p = .ok tok)
    (hbound : m₀.session.world.bindingState ctx₀.thread tok = .bound id) :
    GivesInstance m₀ ctx₀ tok id (.ofCurrent p)

/-- What is opened is the binding `b` of the thread under the process `tok`, by a closure on that thread:
as its current one, or by a handle to it. -/
inductive GivesBinding (m₀ : Machine) (ctx₀ : Context) (t : ThreadId) (tok : Token) (b : Binding) :
    Opening → Prop
  | current {p : Name} (hthread : ctx₀.thread = t) (hproc : m₀.session.process p = .ok tok)
    (hb : (m₀.session.world.thread t).binding? tok = some b) :
    GivesBinding m₀ ctx₀ t tok b (.ofThread p)
  | handle {n : Name} {h : Handle} (hthread : ctx₀.thread = t)
    (hname : m₀.session.handleNamed t n = .ok h) (hstorage : h.storage = b.storage)
    (hb : (m₀.session.world.thread t).binding? tok = some b) :
    GivesBinding m₀ ctx₀ t tok b (.ofHandle n)

/-- A call on what is in hand is made by a closure that was opened for it. -/
theorem calledFrom_of_nextCall? {c : FocusCall} (hm : History allowed past m)
    (hcall : m.nextCall? = some (ctx, .focus c)) (hfocus : ctx.focus ≠ .nothing) :
    ∃ m₀ ctx₀ o, CalledFrom past m ctx.focus m₀ ctx₀ o := by
  obtain ⟨on?, hnext⟩ := next?_of_nextCall? hcall
  obtain ⟨b, below, m₀, ctx₀, o, hclosure, hcontext, hopened⟩ := openedAt_of_focus hm hnext hfocus
  exact ⟨m₀, ctx₀, o, ⟨ctx, c, hcall, rfl⟩, b, below, hclosure, by rw [hcontext], hopened⟩

/-! ## What is in hand -/

theorem bindingState_opening (m : Machine) (ctx : Context) (t : ThreadId) (tok : Token) :
    (m.opening ctx).world.bindingState t tok = m.session.world.bindingState t tok :=
  bindingState_congr (by rw [thread_opening]) fun _ _ => rfl

/-- From where the closure was opened the run goes on without ending it. -/
theorem CalledFrom.opened {focus : Focus} (h : CalledFrom past m focus m₀ ctx₀ o)
    (hm : History regular past m) : ∃ on? steps body s past₀,
      m₀.next? = some (ctx₀, .closure on? o steps) ∧
      (m₀.opening ctx₀).enter ctx₀ o steps = .ok (body, s) ∧
      (m₀.opening ctx₀).Opens ctx₀ steps o body ∧ body.context.focus = focus ∧
      History regular past₀ m₀ ∧ m₀.regular = true ∧
      Run (fun m => regular m && m.keeps (m₀.frames.length + 1)) m₀.step m := by
  obtain ⟨body, below, hclosure, hfocus, hopened⟩ := h.closure
  have hlength : below.length < m.stack.length := by
    rw [← length_frames]
    exact (suffix_of_closureOf hclosure).length_le
  obtain ⟨past₀, hm₀, hok₀, hrun⟩ := hopened.since hm hlength
  obtain ⟨on?, steps, hnext, body₀, s, henter, job, rfl⟩ := hopened.step
  have hopens := opens_of_enter henter hopened.closure
  exact ⟨on?, steps, body₀, s, past₀, hnext, henter, hopens, hfocus, hm₀, hok₀, hopened.frames ▸ hrun⟩

/-- Whoever has an instance in hand was given it. -/
theorem gives_instance {i : Instance} (hm : History regular past m)
    (h : CalledFrom past m (.instanceVars id) m₀ ctx₀ o)
    (hi : m.session.world.instances.get? id = some i) : GivesInstance m₀ ctx₀ i.owner id o := by
  obtain ⟨on?, steps, body, s, past₀, -, -, hopens, hfocus, hm₀, hok₀, hrun⟩ := h.opened hm
  cases hopens with
  | reference hname =>
    obtain rfl := Focus.instanceVars.inj hfocus
    exact .reference hname
  | @current p tok id' hproc hbound =>
    obtain rfl := Focus.instanceVars.inj hfocus
    rw [bindingState_opening] at hbound
    -- the owner of the instance is the process under which the thread was bound to it
    obtain ⟨left, hleft⟩ := leftBehind_of_history (hm₀.mono fun _ => unedited_of_regular)
    obtain ⟨_, i₀, -, -, hi₀, howner⟩ := owner_of_bindingState hleft.sound.world.bindings hbound
    have hunedited : Run unedited m₀ m := (Run.refl.step (unedited_of_regular hok₀)).trans
      (hrun.mono fun _ hok => unedited_of_regular (Bool.and_eq_true_iff.1 hok).1)
    obtain ⟨-, hgrows⟩ := grows_of_unedited hleft.sound hunedited
    have hdrawn := (hleft.sound.world.registry.instanceDrawn _ i₀ hi₀).1
    obtain ⟨i₁, hi₁, hsame, -⟩ := hgrows.instances _ i hi hdrawn
    obtain rfl := Option.some.inj (hi₀.symm.trans hi₁)
    obtain rfl : i.owner = tok := hsame.symm.trans howner
    exact .current hproc hbound
  | thread hproc hbinding => cases hfocus
  | handle hname hfree => cases hfocus
  | shared shared => cases shared <;> cases hfocus
  | cell id writable => cases hfocus

/-- What a frame uses is in use. -/
theorem uses_subset {f : Frame} (hf : f ∈ m.frames) : f.uses ⊆ m.uses := by
  obtain ⟨f', hf', rfl⟩ := List.mem_map.1 hf
  rw [Frame.uses_shell]
  exact fun use huse => List.mem_flatMap.2 ⟨f', hf', huse⟩

/-- A thread does not end while a closure on it uses one of its storages. -/
theorem lasting_of_borrowed {on? : Option String} {steps : List Step} {handle : Handle}
    {tokens : List Token} {s : Session} (hnext : m₀.next? = some (ctx₀, .closure on? o steps))
    (henter : (m₀.opening ctx₀).enter ctx₀ o steps = .ok (borrowedBody ctx₀ handle tokens steps, s))
    (hok : m₀.regular = true)
    (hrun : Run (fun m => regular m && m.keeps (m₀.frames.length + 1)) m₀.step m) :
    Run (lasting ctx₀.thread) m₀ m := by
  obtain ⟨job, hframes⟩ := frames_act_of_enter hnext henter
  have hstart : m₀.step.frames = _ := hframes
  have hlength : m₀.step.stack.length = m₀.frames.length + 1 := by
    rw [← length_frames, hstart, List.length_cons]
  have hcode : CodeOnTop m₀.step.frames := by
    rw [hstart]
    intro d job below heq
    cases heq
  have hlasting : m₀.lasting ctx₀.thread = true := by
    unfold lasting ends
    rw [settled_of_regular hok, nextCall?_of_next? hnext (by simp)]
    rfl
  refine (Run.refl.step hlasting).trans (hrun.mono_of fun m₂ hrun₂ hallowed => ?_)
  -- the frame of the closure is still there, and its thread is in use
  have hsettled := settled_of_regular (Bool.and_eq_true_iff.1 hallowed).1
  have hsuffix : m₀.step.frames <:+ m₂.frames :=
    frames_of_keeps hcode hrun₂ fun m₃ h₃ => hlength ▸ (Bool.and_eq_true_iff.1 h₃).2
  have hmem := hsuffix.subset (hstart ▸ List.mem_cons_self)
  have huse : (ctx₀.thread, handle.storage) ∈ m₂.uses :=
    uses_subset hmem (List.mem_singleton_self _)
  have hends : m₂.ends ctx₀.thread = false :=
    Bool.eq_false_iff.2 fun hends => not_ends_of_uses hsettled huse (ends_iff.1 hends)
  unfold lasting
  rw [hsettled, hends]
  rfl

/-- A storage that a closure has in hand belongs to the binding that it belonged to. -/
theorem binding_of_use (hm₀ : Reachable regular m₀) {h : Handle}
    (hdrawn : h.storage.number < (m₀.session.world.thread t).nextStorage)
    (hrun : Run (lasting t) m₀ m) (hb : (m.session.world.thread t).binding? tok = some b)
    (hstorage : h.storage = b.storage) : (m₀.session.world.thread t).binding? tok = some b := by
  have hadvances := advances_of_run (threadsSound_of_reachable hm₀) hrun
  -- a binding made since would have a storage that was drawn since
  rcases hadvances.bindings tok b hb with hbefore | hlater
  · exact hbefore
  · rw [hstorage] at hdrawn
    exact absurd hdrawn (Nat.not_lt.2 hlater)

/-- Whoever has the variables of a binding in hand was given them. -/
theorem gives_binding (hm : History regular past m)
    (h : CalledFrom past m (.threadVars t b.storage) m₀ ctx₀ o)
    (hb : (m.session.world.thread t).binding? tok = some b) : GivesBinding m₀ ctx₀ t tok b o := by
  obtain ⟨on?, steps, body, s, past₀, hnext, henter, hopens, hfocus, hm₀, hok₀, hrun⟩ := h.opened hm
  have hsound₀ := threadsSound_of_reachable hm₀.reachable
  -- variables in hand were given by the opening, and those of a binding by two kinds of openings
  cases hopens with
  | reference hname => cases hfocus
  | current hproc hbound => cases hfocus
  | @thread p tok' b' hproc hbinding =>
    obtain ⟨rfl, hstorage⟩ := Focus.threadVars.inj hfocus
    rw [thread_opening] at hbinding
    have hdrawn := (past_of_binding (hsound₀ _) hbinding).drawn
    have hlasting := lasting_of_borrowed hnext henter hok₀ hrun
    have hb₀ := binding_of_use hm₀.reachable hdrawn hlasting hb hstorage
    obtain rfl := (hsound₀ _).apart tok' tok b' b hbinding hb₀ hstorage
    exact .current rfl hproc hb₀
  | @handle n b' hname hfree =>
    obtain ⟨rfl, hstorage⟩ := Focus.threadVars.inj hfocus
    rw [thread_opening] at hfree
    have hdrawn := (hsound₀ _).drawn b'.storage (by rw [hfree]; rfl)
    have hlasting := lasting_of_borrowed hnext henter hok₀ hrun
    exact .handle rfl hname hstorage (binding_of_use hm₀.reachable hdrawn hlasting hb hstorage)
  | shared shared => cases shared <;> cases hfocus
  | cell id writable => cases hfocus

/-! ## Instances that are passed to another process -/

/-- The call passes an instance to its process: to be destroyed, as the parent of a new one, or to bind
the thread to it. -/
inductive Passes (m : Machine) (ctx : Context) (tok : Token) : ProcessCall → InstanceId → Prop
  | destroy {i : Name} {id : InstanceId} (hname : m.session.instanceNamed ctx i = .ok id) :
    Passes m ctx tok (.destroy i) id
  | spawn {i : Name} {as? : Option Name} {id : InstanceId}
    (hname : m.session.instanceNamed ctx i = .ok id) : Passes m ctx tok (.spawn i as?) id
  | bind {i : Name} {as? : Option Name} {id : InstanceId}
    (hkeep : m.session.instanceToKeep ctx (some tok) i = .ok id) : Passes m ctx tok (.bind i as?) id

/-- Every call on a live process refuses an instance of another one, and does nothing. -/
theorem refuses_foreign {p : Name} {c : ProcessCall} {q : Process} {i : Instance} (hkept : m.Kept)
    (hcall : m.nextCall? = some (ctx, .process p c)) (hproc : m.session.process p = .ok tok)
    (hlive : m.session.world.live tok = .ok q) (hpasses : m.Passes ctx tok c id)
    (hi : m.session.world.instances.get? id = some i) (howner : i.owner ≠ tok) :
    m.step.told? = some (.error (.access (.foreignInstance id))) ∧
      m.step.scene = .of (m.opening ctx) m.stack := by
  have hproc' : (m.opening ctx).process p = .ok tok := hproc
  have hlive' : (m.opening ctx).world.live tok = .ok q := hlive
  -- before anything is done all three calls ask for the owner, and get the same refusal
  have hcheck : (m.opening ctx).world.checkOwner tok id = .error (.foreignInstance id) := by
    have hi' : (m.opening ctx).world.instances.get? id = some i := hi
    unfold checkOwner
    rw [hi', Option.any_some, decide_eq_false howner]
    rfl
  have hdone : (m.opening ctx).call ctx (.process p c) =
      .done (.error (.access (.foreignInstance id))) (m.opening ctx) := by
    cases hpasses with
    | @destroy n _ hname =>
      have hname' : (m.opening ctx).instanceNamed ctx n = .ok id := hname
      have hwithdraw : (m.opening ctx).world.withdraw ctx.thread tok id =
          .error (.foreignInstance id) := by
        unfold withdraw
        rw [hlive', hcheck]
        rfl
      simp only [call, hproc', processCall, hname', beginDestroy, hwithdraw]
    | @spawn n as? _ hname =>
      have hname' : (m.opening ctx).instanceNamed ctx n = .ok id := hname
      simp only [call, hproc', processCall, hname', enrollChild, hcheck]
      rfl
    | @bind n as? _ hkeep =>
      have hkeep' : (m.opening ctx).instanceToKeep ctx (some tok) n = .ok id :=
        (instanceToKeep_opening m ctx tok n).trans hkeep
      have hbind : (m.opening ctx).world.bind ctx.thread tok id =
          (.error (.foreignInstance id), (m.opening ctx).world) := by
        unfold World.bind
        rw [hlive', hcheck]
      rw [call_of_plain hproc' (live_ok.1 hlive').1 rfl]
      simp only [plainProcessCall, hkeep', hbind]
      rfl
  obtain ⟨htold, hscene⟩ := told?_of_done hcall (by simp) hdone
  rw [step_eq_act ((kept_of_scene hscene).2 ⟨hkept.processes, hkept.instances⟩)]
  exact ⟨htold, hscene⟩

/-! ## Every step -/

/-- What the next step can reach of what belongs to instances, bindings and processes. -/
structure Isolated (past : List Machine) (m : Machine) : Prop where
  /-- The variables of an instance are written to by a closure only that was given this instance. -/
  vars : ∀ id i i', m.session.world.instances.get? id = some i →
    m.step.session.world.instances.get? id = some i' → i'.vars ≠ i.vars →
      ∃ m₀ ctx₀ o, CalledFrom past m (.instanceVars id) m₀ ctx₀ o ∧
        GivesInstance m₀ ctx₀ i.owner id o
  /-- They begin as declared, whether the instance is created or spawned. -/
  initial : ∀ id i, m.session.world.instances.get? id = none →
    m.step.session.world.instances.get? id = some i → i.vars = {} ∧
      ∃ ctx p c, m.nextCall? = some (ctx, .process p c) ∧ m.session.process p = .ok i.owner ∧
        (m.opening ctx).Creates ctx c i.parent?
  /-- The variables of a binding that lasts are written to by a closure only that runs on its thread
  and was given this binding. -/
  threadVars : ∀ t tok b, (m.session.world.thread t).binding? tok = some b →
    (m.step.session.world.thread t).binding? tok = some b →
    (m.step.session.world.thread t).varsOf b ≠ (m.session.world.thread t).varsOf b →
      ∃ m₀ ctx₀ o, CalledFrom past m (.threadVars t b.storage) m₀ ctx₀ o ∧
        GivesBinding m₀ ctx₀ t tok b o
  /-- A binding is ended by its own thread only. -/
  ended : ∀ t tok b, (m.session.world.thread t).binding? tok = some b →
    (m.step.session.world.thread t).binding? tok ≠ some b → m.actor = t ∨ m.ends t = true
  others : ∀ tok, m.operates? ≠ some tok → m.LeavesAlone tok
  /-- An instance of another process is refused by a live one, and nothing is done. -/
  foreign : ∀ ctx p tok c id i q, m.nextCall? = some (ctx, .process p c) →
    m.session.process p = .ok tok → m.session.world.live tok = .ok q → m.Passes ctx tok c id →
    m.session.world.instances.get? id = some i → i.owner ≠ tok →
      m.step.told? = some (.error (.access (.foreignInstance id))) ∧
        m.step.scene = .of (m.opening ctx) m.stack

/-- The variables of an instance change by a call only that has them in hand. -/
theorem call_of_vars {left : List (Token × InstanceId)} {i i' : Instance}
    (hs : (m.viewWith left).Sound) (hi : m.session.world.instances.get? id = some i)
    (hi' : m.step.session.world.instances.get? id = some i') (hvars : i'.vars ≠ i.vars) :
    ∃ ctx c, m.nextCall? = some (ctx, .focus c) ∧ ctx.focus = .instanceVars id := by
  have hturn := instanceTurn_act m id
  rw [get?_of_step hi'] at hturn
  generalize heq : some i' = i? at hturn
  cases hturn with
  | same =>
    obtain rfl := Option.some.inj (heq.trans hi)
    exact absurd rfl hvars
  | vars v hcall hfocus hi => exact ⟨_, _, hcall, hfocus⟩
  | made hcall hproc hcreates hnew =>
    -- one that is made now was not there before
    have hdrawn := (hs.world.registry.instanceDrawn id i hi).1
    rw [hnew] at hdrawn
    exact absurd hdrawn (Nat.lt_irrefl _)
  | @marked d j hfin htask htarget hj =>
    obtain rfl := Option.some.inj (hj.symm.trans hi)
    rw [Option.some.inj heq] at hvars
    exact absurd rfl hvars

/-- An instance that is new was made by a call that creates it. -/
theorem call_of_new {i : Instance} (hi : m.session.world.instances.get? id = none)
    (hi' : m.step.session.world.instances.get? id = some i) : i.vars = {} ∧
      ∃ ctx p c, m.nextCall? = some (ctx, .process p c) ∧ m.session.process p = .ok i.owner ∧
        (m.opening ctx).Creates ctx c i.parent? := by
  have hturn := instanceTurn_act m id
  rw [get?_of_step hi'] at hturn
  generalize heq : some i = i? at hturn
  cases hturn with
  | same => cases heq.trans hi
  | vars v hcall hfocus hj | marked hfin htask htarget hj => cases hi.symm.trans hj
  | made hcall hproc hcreates hnew =>
    obtain rfl := Option.some.inj heq
    exact ⟨rfl, _, _, _, hcall, hproc, hcreates⟩

/-- The variables of a binding that lasts change by a call only that has them in hand. -/
theorem call_of_threadVars (hs : m.session.world.ThreadsSound)
    (hs' : m.step.session.world.ThreadsSound) (hb : (m.session.world.thread t).binding? tok = some b)
    (hb' : (m.step.session.world.thread t).binding? tok = some b)
    (hvars : (m.step.session.world.thread t).varsOf b ≠ (m.session.world.thread t).varsOf b) :
    ∃ ctx c, m.nextCall? = some (ctx, .focus c) ∧ ctx.focus = .threadVars t b.storage := by
  by_contra hnot
  have hends : m.ends t = false := by
    refine Bool.eq_false_iff.2 fun hends => ?_
    unfold binding? at hb'
    rw [slots_of_ends hends] at hb'
    cases hb'
  have hspares : Spares (fun _ => False) (· = b.storage) (m.session.world.thread t)
      (m.step.session.world.thread t) := by
    -- the step is no call that has them in hand, so it spares them
    refine spares_step hends (fun _ _ hkept => hkept.elim) fun s hs ctx c hcall hfocus => ?_
    exact hnot ⟨ctx, c, hcall, hs ▸ hfocus⟩
  obtain ⟨u, hu⟩ := Option.isSome_iff_exists.1 ((hs' t).stored tok b hb')
  obtain ⟨st', hst', -⟩ := Option.map_eq_some_iff.1 hu
  obtain ⟨st, hst, hsame⟩ := hspares.vars b.storage st' rfl
    ((hs t).drawn b.storage ((hs t).stored tok b hb)) hst'
  refine hvars ?_
  unfold varsOf
  rw [hst', hst, Option.map_some, Option.map_some, hsame]

/-- A binding is ended by its own thread only. -/
theorem actor_of_ended (hb : (m.session.world.thread t).binding? tok = some b)
    (hb' : (m.step.session.world.thread t).binding? tok ≠ some b) :
    m.actor = t ∨ m.ends t = true := by
  by_contra hnot
  obtain ⟨hactor, hends⟩ := not_or.1 hnot
  have hspares : Spares (fun _ => True) (fun _ => False) (m.session.world.thread t)
      (m.step.session.world.thread t) :=
    spares_step (Bool.eq_false_iff.2 hends) (fun heq => absurd heq hactor) fun _ hs => hs.elim
  exact hb' ((binding?_congr (hspares.slots tok trivial)).trans hb)

/-- At every point of every run in which no thread is ended with code under way and no registry is
changed past every check, the next step is isolated. -/
theorem isolation (hm : History regular past m) (hok : m.regular = true) : Isolated past m where
  vars id i i' hi hi' hvars := by
    -- instances that unwound operations have left behind are accounted for in `left`
    obtain ⟨left, hleft⟩ := leftBehind_of_history (hm.mono fun _ => unedited_of_regular)
    obtain ⟨ctx, c, hcall, hfocus⟩ := call_of_vars hleft.sound hi hi' hvars
    obtain ⟨m₀, ctx₀, o, hfrom⟩ := calledFrom_of_nextCall? hm hcall (by simp [hfocus])
    rw [hfocus] at hfrom
    exact ⟨m₀, ctx₀, o, hfrom, gives_instance hm hfrom hi⟩
  initial id i hi hi' := call_of_new hi hi'
  threadVars t tok b hb hb' hvars := by
    have hs := threadsSound_of_reachable hm.reachable
    have hs' : m.step.session.world.ThreadsSound :=
      threadsSound_of_reachable (hm.reachable.run (Run.refl.step hok))
    obtain ⟨ctx, c, hcall, hfocus⟩ := call_of_threadVars hs hs' hb hb' hvars
    obtain ⟨m₀, ctx₀, o, hfrom⟩ := calledFrom_of_nextCall? hm hcall (by simp [hfocus])
    rw [hfocus] at hfrom
    exact ⟨m₀, ctx₀, o, hfrom, gives_binding hm hfrom hb⟩
  ended t tok b hb hb' := actor_of_ended hb hb'
  others tok hne := by
    obtain ⟨left, hleft⟩ := leftBehind_of_history (hm.mono fun _ => unedited_of_regular)
    exact leavesAlone_step hleft.sound (kept_of_reachable hm.reachable) hne
  foreign ctx p tok c id i q hcall hproc hlive hpasses hi howner :=
    refuses_foreign (kept_of_reachable hm.reachable) hcall hproc hlive hpasses hi howner

/-- A program with two processes. A closure writes to the instance of the first one, and that of the
second one is passed to the first. -/
def twoProcesses : Machine :=
  start default default 0 [
    .call none (.start "p" none),
    .call none (.start "q" none),
    .call none (.process "p" (.create (some "i"))),
    .call none (.process "q" (.create (some "j"))),
    .call none (.process "p" (.bind "i" none)),
    .closure none (.ofCurrent "p") [.call none (.focus .bump)],
    .call none (.process "p" (.destroy "j"))]

/-- The closure was given the instance that it writes to. The one that is passed is refused. -/
theorem isolated_processes :
    (∃ m₀ ctx₀ o, CalledFrom (trail 8 twoProcesses []) (twoProcesses.run 8) (.instanceVars ⟨1⟩) m₀ ctx₀ o ∧
      GivesInstance m₀ ctx₀ ⟨1⟩ ⟨1⟩ o) ∧
    (twoProcesses.run 10).step.told? = some (.error (.access (.foreignInstance ⟨2⟩))) := by
  have hm : ∀ n, n = 8 ∨ n = 10 →
      History regular (trail n twoProcesses []) (twoProcesses.run n) ∧
        (twoProcesses.run n).regular = true := by
    rintro n (rfl | rfl) <;> exact ⟨.of_run (by decide +kernel), by decide +kernel⟩
  constructor
  · have hbefore : ((twoProcesses.run 8).session.world.instances.get? ⟨1⟩).map
        (fun i => (i.owner, i.vars.svCount)) = some (⟨1⟩, 0) := by decide +kernel
    have hafter : ((twoProcesses.run 8).step.session.world.instances.get? ⟨1⟩).map
        (fun i => (i.owner, i.vars.svCount)) = some (⟨1⟩, 1) := by decide +kernel
    obtain ⟨i, hi, hfields⟩ := Option.map_eq_some_iff.1 hbefore
    obtain ⟨i', hi', hfields'⟩ := Option.map_eq_some_iff.1 hafter
    obtain ⟨howner, hcount⟩ := Prod.mk.inj hfields
    obtain ⟨-, hcount'⟩ := Prod.mk.inj hfields'
    have hvars : i'.vars ≠ i.vars := by
      intro heq
      rw [heq, hcount] at hcount'
      cases hcount'
    have hwritten := (isolation (hm 8 (.inl rfl)).1 (hm 8 (.inl rfl)).2).vars ⟨1⟩ i i' hi hi' hvars
    rw [howner] at hwritten
    exact hwritten
  · have howner : ((twoProcesses.run 10).session.world.instances.get? ⟨2⟩).map (·.owner) =
        some ⟨2⟩ := by decide +kernel
    have hlive : ((twoProcesses.run 10).session.world.live ⟨1⟩).toOption.isSome = true := by
      decide +kernel
    have hcall : (twoProcesses.run 10).nextCall? =
        some ({ thread := .main }, .process "p" (.destroy "j")) := by decide +kernel
    have hproc : (twoProcesses.run 10).session.processes.get? "p" = some ⟨1⟩ := by decide +kernel
    have hname : (twoProcesses.run 10).session.instances.get? "j" = some ⟨2⟩ := by decide +kernel
    obtain ⟨i, hi, howner⟩ := Option.map_eq_some_iff.1 howner
    obtain ⟨q, hq⟩ := Option.isSome_iff_exists.1 hlive
    have hpasses : (twoProcesses.run 10).Passes { thread := .main } ⟨1⟩ (.destroy "j") ⟨2⟩ := by
      refine .destroy ?_
      unfold instanceNamed
      rw [hname]
      rfl
    exact ((isolation (hm 10 (.inr rfl)).1 (hm 10 (.inr rfl)).2).foreign _ "p" ⟨1⟩ _ ⟨2⟩ i q hcall
      (process_eq_ok.2 hproc) (toOption_eq_some.1 hq) hpasses hi (by simp [howner])).1

end Machine

end TieredState
