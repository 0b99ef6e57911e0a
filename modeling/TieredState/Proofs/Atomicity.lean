import TieredState.Proofs.Sweep

/-!
# An error leaves everything as it was

The operations that create and destroy instances list hooks after they have changed a registry, and
listing hooks takes a lock, so there are ways out of them with an error when something is changed
already. None of these is ever taken. Whoever has taken the registry's lock may take that of the hooks
too, and an operation that goes on after its hooks have run holds no more than at its beginning. So an
error is always returned at once, and then nothing has changed.
-/

namespace TieredState

/-- The outcome of a call that is done. -/
def Progress.outcome? : Progress → Option Outcome
  | done o _ => some o
  | running _ _ => none

namespace Machine

open Session

/-- What the next step returns from an operation that creates or destroys instances, be it at once or
after its hooks have run. -/
def returned? (m : Machine) : Option Outcome :=
  match m.finishing? with
  | some d => (m.session.finish d).outcome?
  | none =>
    match m.nextCall? with
    | some (ctx, .process p c) =>
      if c.isLifecycle then ((m.opening ctx).call ctx (.process p c)).outcome? else none
    | _ => none

/-- Between the two machines nothing has happened to a process, to an instance or to what a thread
keeps; no code of a hook was called, and no operation has begun. -/
structure Intact (m m' : Machine) : Prop where
  processes : m'.session.world.processes = m.session.world.processes
  instances : m'.session.world.instances = m.session.world.instances
  threads : ∀ t, m'.session.world.thread t = m.session.world.thread t
  callbacks : m'.session.callbacks = m.session.callbacks
  stack : m'.stack.map Frame.shell = m.stack.map Frame.shell

variable {allowed : Machine → Bool} {m : Machine} {ctx : Context}

/-! ## Errors that are returned at once -/

/-- Such a call is refused before anything but an identity was drawn. -/
theorem intact_of_refused {w : World} (hkept : m.Kept)
    (hscene : m.act.scene = .of ((m.opening ctx).withWorld w) m.stack)
    (hw : w = (m.opening ctx).world ∨ w = (m.opening ctx).world.draw) : Intact m m.step := by
  have hact : m.act.Kept := by
    refine (kept_of_scene hscene).2 ?_
    rcases hw with rfl | rfl <;> exact ⟨hkept.processes, hkept.instances⟩
  obtain ⟨hsession, hstack⟩ := Scene.mk.inj hscene
  have hworld : m.act.session.world = w := congrArg Session.world hsession
  have hcallbacks := congrArg Session.callbacks hsession
  rw [step_eq_act hact]
  refine ⟨?_, ?_, ?_, hcallbacks, hstack⟩
  all_goals rw [hworld]
  · rcases hw with rfl | rfl <;> rfl
  · rcases hw with rfl | rfl <;> rfl
  · rcases hw with rfl | rfl <;> exact thread_opening m ctx

/-- A call that creates or destroys instances and returns an error at once has changed nothing. -/
theorem intact_of_call {p : Name} {c : ProcessCall} {f : Fault} (hkept : m.Kept)
    (hcall : m.nextCall? = some (ctx, .process p c)) (hc : c.isLifecycle = true)
    (herror : ((m.opening ctx).call ctx (.process p c)).outcome? = some (.error f)) :
    Intact m m.step := by
  obtain ⟨job, hscene⟩ := act_of_nextCall? hcall nofun
  cases hprogress : (m.opening ctx).call ctx (.process p c) with
  | running d s =>
    rw [hprogress] at herror
    cases herror
  | done o s =>
    rw [hprogress] at herror hscene
    obtain rfl := Option.some.inj herror
    -- the ways in which a call can be done that end in an error
    have hserved := call_done hprogress
    generalize hofault : (Except.error f : Outcome) = o at hserved
    cases hserved with
    | plain hplain => exact absurd rfl (hplain p c)
    | process _ _ hnot =>
      rw [hc] at hnot
      cases hnot
    | refused f' => exact intact_of_refused hkept hscene (.inl rfl)
    | drawn _ _ => exact intact_of_refused hkept hscene (.inr rfl)
    | shutdown _ _ => cases hofault

/-! ## Operations under way -/

/-- No operation on the stack has failed to list hooks. -/
theorem failure?_of_eased {holds : Holds} {stack : List Frame} (h : TieredState.Eased holds stack)
    {d : Dispatch} {job : Bool} (hmem : .dispatch d job ∈ stack) : d.failure? = none := by
  induction stack generalizing holds with
  | nil => cases hmem
  | cons f below ih =>
    cases f with
    | body b =>
      rcases List.mem_cons.1 hmem with heq | hmem
      · cases heq
      · have hbelow : TieredState.Eased (relieved holds b) below := h
        exact ih hbelow hmem
    | dispatch d' job' =>
      obtain ⟨⟨hfailure, -⟩, hbelow⟩ := h
      rcases List.mem_cons.1 hmem with heq | hmem
      · cases heq
        exact hfailure
      · exact ih hbelow hmem

/-- An operation whose hooks have run returns no error. -/
theorem outcome?_finish {d : Dispatch} {f : Fault} (h : m.Eased) (hfin : m.finishing? = some d) :
    (m.session.finish d).outcome? ≠ some (.error f) := by
  obtain ⟨job, below, hstack, -⟩ := act_of_finishing? hfin
  intro herror
  rcases finish_cases (able_of_eased h hstack).1 with ⟨a, s, hdone, -⟩ | ⟨id, rest, count, -, hrun⟩
  · rw [hdone] at herror
    cases herror
  · rw [hrun] at herror
    cases herror

/-- At every point of a run, whatever its steps are: an operation that creates or destroys instances
and returns an error returns it at once, and everything is as it was when it was called. No operation
that has changed a registry has failed to list its hooks. -/
theorem atomic_on_error (hm : Reachable allowed m) :
    (∀ f, m.returned? = some (.error f) → m.finishing? = none ∧ Intact m m.step) ∧
    ∀ d job, .dispatch d job ∈ m.stack → d.failure? = none := by
  have heased := eased_of_reachable hm
  refine ⟨?_, fun d job hmem => failure?_of_eased heased hmem⟩
  intro f hreturned
  unfold returned? at hreturned
  cases hfin : m.finishing? with
  | some d =>
    rw [hfin] at hreturned
    exact absurd hreturned (outcome?_finish heased hfin)
  | none =>
    rw [hfin] at hreturned
    refine ⟨rfl, ?_⟩
    dsimp only at hreturned
    split at hreturned
    · next ctx p c hcall =>
      split at hreturned
      · next hc => exact intact_of_call (kept_of_reachable hm) hcall hc hreturned
      · cases hreturned
    · cases hreturned

/-- A program that destroys an instance while it holds the lock of the hooks. -/
def destroyedUnderLock : Machine :=
  start default default 0 [
    .call none (.start "p" none),
    .call none (.process "p" (.create (some "i"))),
    .closure none (.ofShared "p" .hooksRead) [.call none (.process "p" (.destroy "i"))]]

/-- The destruction is refused, and the instance is registered still. -/
theorem intact_under_lock : Intact (destroyedUnderLock.run 4) (destroyedUnderLock.run 4).step := by
  have hreach : Reachable orderly (destroyedUnderLock.run 4) := .of_run (by decide +kernel)
  have hrefused : (destroyedUnderLock.run 4).returned?.any (!·.toBool) = true := by decide +kernel
  obtain ⟨o, ho, herror⟩ := (Option.any_eq_true _ _).1 hrefused
  cases o with
  | ok a => cases herror
  | error f => exact ((atomic_on_error hreach).1 f ho).2

end Machine

end TieredState
