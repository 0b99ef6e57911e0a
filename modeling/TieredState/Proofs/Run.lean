import TieredState.Proofs.CalmCalls

/-!
# Runs

A run takes a machine from step to step. What the code under way does next is not fixed in advance:
between two steps it may change its mind about the steps that it has not taken yet, so a hook can do
something else each time it is called, and a closure can go by what it has seen. `Run allowed m m'`
says that `m` comes to `m'` by steps each of which is `allowed`; `Reachable allowed m` that a program
comes to `m` from its beginning.

* `orderly` — the step to be taken next neither changes a registry past every check nor unwinds a
  hook. Most of the theory is about runs of orderly steps.
* `nextCall?`, `finishing?` — what the step to be taken next is about.
* `condemned`, `uses`, `closing` — what the operations and closures under way have on their hands.
-/

namespace TieredState

/-! ## What is under way -/

namespace Dispatch

/-- The instances that the operation has taken from a registry and has not yet marked dead. -/
def condemned (d : Dispatch) : List InstanceId :=
  match d.task with
  | .create _ => []
  | .destroy => [d.target]
  | .shutdown rest _ => d.target :: rest

/-- The same instances, with the process from whose registry they were taken. -/
def charges (d : Dispatch) : List (Token × InstanceId) := d.condemned.map (d.process, ·)

/-- The process that the operation shuts down. -/
def closing (d : Dispatch) : List Token :=
  match d.task with
  | .shutdown _ _ => [d.process]
  | _ => []

end Dispatch

namespace Frame

def condemned : Frame → List InstanceId
  | body _ => []
  | dispatch d _ => d.condemned

def charges : Frame → List (Token × InstanceId)
  | body _ => []
  | dispatch d _ => d.charges

/-- The storage that the frame's closure uses, with the thread it belongs to. -/
def uses : Frame → List (ThreadId × StorageId)
  | body b =>
    match b.owner with
    | .storage s => [(b.context.thread, s)]
    | _ => []
  | dispatch _ _ => []

def closing : Frame → List Token
  | body _ => []
  | dispatch d _ => d.closing

/-- What is condemned is kept in existence. -/
theorem condemned_subset_ids (f : Frame) : f.condemned ⊆ f.ids := by
  cases f with
  | body b => exact List.nil_subset _
  | dispatch d job =>
    unfold condemned Dispatch.condemned ids
    dsimp only
    cases d.task with
    | create as? => exact List.nil_subset _
    | destroy => exact List.Subset.refl _
    | shutdown rest count => exact List.Subset.refl _

end Frame

namespace Machine

/-- The instances that operations under way have taken from their registries and have not yet
marked dead. -/
def condemned (m : Machine) : List InstanceId := m.stack.flatMap Frame.condemned

/-- The same instances, each with the process from whose registry it was taken. -/
def charges (m : Machine) : List (Token × InstanceId) := m.stack.flatMap Frame.charges

/-- The storages that closures under way use, each with its thread. -/
def uses (m : Machine) : List (ThreadId × StorageId) := m.stack.flatMap Frame.uses

/-- The processes that operations under way shut down. -/
def closing (m : Machine) : List Token := m.stack.flatMap Frame.closing

/-- What is still to be marked dead is kept in existence. -/
theorem condemned_subset_heldIds (m : Machine) : m.condemned ⊆ m.heldIds := by
  intro id hid
  obtain ⟨f, hf, hin⟩ := List.mem_flatMap.1 hid
  exact List.mem_flatMap.2 ⟨f, hf, f.condemned_subset_ids hin⟩

/-- What is charged is condemned, whatever process it was taken from. -/
theorem map_charges (m : Machine) : m.charges.map (·.2) = m.condemned := by
  unfold charges condemned
  rw [List.map_flatMap]
  congr 1
  funext f
  cases f with
  | body b => rfl
  | dispatch d job =>
    unfold Frame.charges Frame.condemned Dispatch.charges
    dsimp only
    rw [List.map_map]
    exact List.map_id _

/-! ## What comes next -/

/-- The step to be taken next, and the context in which it is taken. There is none while hooks are
dispatched or a body ends. -/
def next? (m : Machine) : Option (Context × Step) :=
  match m.stack with
  | .body b :: _ => b.pending.head?.map fun s => ((contextOf b.context s).1, s)
  | .dispatch _ _ :: _ => none
  | [] => m.script.head?.map fun s => ((contextOf { thread := .main } s).1, s)

/-- The call to be made next, and its context, if the next step is a call. -/
def nextCall? (m : Machine) : Option (Context × Call) :=
  match m.next? with
  | some (ctx, .call _ c) => some (ctx, c)
  | _ => none

/-- The dispatch whose hooks have run, with whose operation the next step goes on. -/
def finishing? (m : Machine) : Option Dispatch :=
  match m.stack with
  | .dispatch d _ :: _ => if d.pending = [] then some d else none
  | _ => none

/-- Whether unwinding comes to a hook before it stops. -/
def unwindsHook : List Frame → Bool
  | [] => false
  | .body b :: below => !(b.job || b.owner = .attempt) && unwindsHook below
  | .dispatch _ _ :: _ => true

/-- The next step neither changes a registry past every check nor unwinds a hook. -/
def orderly (m : Machine) : Bool :=
  match m.next? with
  | some (_, .call on? c) =>
    !c.editsRegistry && !(decide (c = .fail) && on?.isNone && unwindsHook m.stack)
  | _ => true

/-- While an operation is under way on top, no step is taken. -/
theorem next?_of_dispatch {m : Machine} {d : Dispatch} {job : Bool} {below : List Frame}
    (hstack : m.stack = .dispatch d job :: below) : m.next? = none := by
  unfold next?
  rw [hstack]

/-- Neither is one while a body ends. -/
theorem next?_of_done {m : Machine} {b : Body} {below : List Frame}
    (hstack : m.stack = .body b :: below) (hpending : b.pending = []) : m.next? = none := by
  unfold next?
  rw [hstack]
  dsimp only
  rw [hpending]
  rfl

/-- A call that is the next step is the next call. -/
theorem nextCall?_of_call {m : Machine} {ctx : Context} {on? : Option String} {c : Call}
    (hnext : m.next? = some (ctx, .call on? c)) : m.nextCall? = some (ctx, c) := by
  unfold nextCall?
  rw [hnext]

/-- Where the next step is none of calls, there is no next call. -/
theorem nextCall?_of_next? {m : Machine} {ctx : Context} {step : Step}
    (hnext : m.next? = some (ctx, step)) (hstep : ∀ on? c, step ≠ .call on? c) :
    m.nextCall? = none := by
  unfold nextCall?
  rw [hnext]
  split
  · next heq => exact absurd (congrArg Prod.snd (Option.some.inj heq)) (hstep _ _)
  · rfl

/-- Where there is no next step, there is no next call. -/
theorem nextCall?_of_none {m : Machine} (hnext : m.next? = none) : m.nextCall? = none := by
  unfold nextCall?
  rw [hnext]

/-- A call to be made next is a step to be taken next. -/
theorem next?_of_nextCall? {m : Machine} {ctx : Context} {c : Call}
    (h : m.nextCall? = some (ctx, c)) : ∃ on?, m.next? = some (ctx, .call on? c) := by
  unfold nextCall? at h
  split at h
  · next ctx' on? c' hnext =>
    obtain ⟨rfl, rfl⟩ := Prod.mk.inj (Option.some.inj h)
    exact ⟨on?, hnext⟩
  · cases h

/-- A call is made by the thread of its context. -/
theorem actor_of_nextCall? {m : Machine} {ctx : Context} {c : Call}
    (h : m.nextCall? = some (ctx, c)) : m.actor = ctx.thread := by
  obtain ⟨on?, hs⟩ := next?_of_nextCall? h
  unfold next? at hs
  unfold actor
  -- the step comes from the script or from the body on top, and a dispatch has none
  cases hstack : m.stack with
  | nil =>
    rw [hstack] at hs
    obtain ⟨s', hs', heq⟩ := Option.map_eq_some_iff.1 hs
    obtain ⟨rest, hscript⟩ := List.head?_eq_some_iff.1 hs'
    obtain ⟨rfl, rfl⟩ := Prod.mk.inj heq
    dsimp only
    rw [hscript]
  | cons f below =>
    rw [hstack] at hs
    cases f with
    | body b =>
      obtain ⟨s', hs', heq⟩ := Option.map_eq_some_iff.1 hs
      obtain ⟨rest, hpending⟩ := List.head?_eq_some_iff.1 hs'
      obtain ⟨rfl, rfl⟩ := Prod.mk.inj heq
      dsimp only
      rw [hpending]
    | dispatch d job => cases hs

/-- An operation goes on by the thread of its dispatch. -/
theorem actor_of_finishing? {m : Machine} {d : Dispatch} (h : m.finishing? = some d) :
    m.actor = d.thread := by
  unfold finishing? at h
  unfold actor
  split at h
  · next d' job below hstack =>
    rw [hstack]
    split at h
    · rw [Option.some.inj h]
    · cases h
  · cases h

/-- Going on with an operation is orderly. -/
theorem orderly_of_finishing? {m : Machine} {d : Dispatch} (h : m.finishing? = some d) :
    m.orderly = true := by
  unfold finishing? at h
  unfold orderly next?
  split at h
  · next hstack => rw [hstack]
  · cases h

/-- So is a call that neither changes a registry nor fails. -/
theorem orderly_of_nextCall? {m : Machine} {ctx : Context} {c : Call}
    (h : m.nextCall? = some (ctx, c)) (hedit : c.editsRegistry = false) (hfail : c ≠ .fail) :
    m.orderly = true := by
  obtain ⟨on?, hnext⟩ := next?_of_nextCall? h
  unfold orderly
  rw [hnext]
  dsimp only
  rw [hedit, decide_eq_false hfail]
  rfl

/-! ## Runs -/

/-- The machine whose code at hand goes on with other steps than it was about to take. -/
def redirect (m : Machine) (steps : List Step) : Machine :=
  match m.stack with
  | .body b :: below => { m with stack := .body { b with pending := steps } :: below }
  | .dispatch _ _ :: _ => m
  | [] => { m with script := steps }

/-- The machines that `m` can come to by steps that are allowed. -/
inductive Run (allowed : Machine → Bool) (m : Machine) : Machine → Prop
  | refl : Run allowed m m
  | step {m' : Machine} (hrun : Run allowed m m') (hallowed : allowed m' = true) :
    Run allowed m m'.step
  | redirect {m' : Machine} (hrun : Run allowed m m') (steps : List Step) :
    Run allowed m (m'.redirect steps)

variable {allowed : Machine → Bool} {m m' m'' : Machine}

theorem Run.trans (h : Run allowed m m') (h' : Run allowed m' m'') : Run allowed m m'' := by
  induction h' with
  | refl => exact h
  | step _ hallowed ih => exact ih.step hallowed
  | redirect _ steps ih => exact ih.redirect steps

/-- A step may be known to be more than allowed by what led to it. -/
theorem Run.mono_of {allowed' : Machine → Bool} (hrun : Run allowed m m')
    (hmore : ∀ m₁, Run allowed m m₁ → allowed m₁ = true → allowed' m₁ = true) : Run allowed' m m' := by
  induction hrun with
  | refl => exact .refl
  | step hrun hallowed ih => exact ih.step (hmore _ hrun hallowed)
  | redirect _ steps ih => exact ih.redirect steps

/-- A run stays one when more is allowed. -/
theorem Run.mono {allowed' : Machine → Bool} (h : Run allowed m m')
    (hmore : ∀ m, allowed m = true → allowed' m = true) : Run allowed' m m' :=
  h.mono_of fun m _ => hmore m

/-- Whether the next `n` steps are allowed, or those until the script is at its end. -/
def allows (allowed : Machine → Bool) : Nat → Machine → Bool
  | 0, _ => true
  | n + 1, m => m.isFinished || allowed m && allows allowed n m.step

/-- Running a script is a run. -/
theorem Run.of_run {n : Nat} (h : allows allowed n m = true) : Run allowed m (m.run n) := by
  induction n generalizing m with
  | zero => exact .refl
  | succ n ih =>
    unfold Machine.run
    split
    · exact .refl
    · next hgoes =>
      unfold allows at h
      simp only [hgoes, Bool.false_or, Bool.and_eq_true] at h
      exact (Run.refl.step h.1).trans (ih h.2)

/-- The machine of a program that begins: nothing exists, and the script is still to be run. -/
def start (files : FileTree) (environment : Variables) (fieldCount : Nat) (script : List Step) :
    Machine :=
  { session := { files, environment, fieldCount }, script }

/-- A program comes to the machine by steps that are allowed. -/
def Reachable (allowed : Machine → Bool) (m : Machine) : Prop :=
  ∃ files environment fieldCount script, Run allowed (start files environment fieldCount script) m

/-- Where a program comes to in so many steps can be reached, if these are allowed. -/
theorem Reachable.of_run {files : FileTree} {environment : Variables} {fieldCount : Nat}
    {script : List Step} {n : Nat}
    (h : allows allowed n (start files environment fieldCount script) = true) :
    Reachable allowed ((start files environment fieldCount script).run n) :=
  ⟨files, environment, fieldCount, script, .of_run h⟩

/-- What is reached from where a program comes to can be reached. -/
theorem Reachable.run (h : Reachable allowed m) (hrun : Run allowed m m') : Reachable allowed m' := by
  obtain ⟨files, environment, fieldCount, script, h⟩ := h
  exact ⟨files, environment, fieldCount, script, h.trans hrun⟩

/-- A program whose worker destroys the instance that the main thread is bound to. -/
def destroyedByWorker : Machine :=
  start default default 0 [
    .call none (.start "p" none),
    .call none (.process "p" (.create (some "i"))),
    .call none (.process "p" (.bind "i" (some "h"))),
    .call (some "a") (.process "p" (.destroy "i")),
    .closure none (.ofHandle "h") []]

end Machine

end TieredState
