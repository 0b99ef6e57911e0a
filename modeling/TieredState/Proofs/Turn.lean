import TieredState.Proofs.Bindings
import TieredState.Proofs.Run

/-!
# A step in full

A step of a machine does one thing, to the session and to the stack of what is under way. `Turn`
lists what it can be. Of the machine it tells the `Scene`: steps that are still to be taken, and the
outcomes of those that were, are left out. The cases are taken apart in turn: `Served` lists how a
call can be done at once, `Begins` how it can begin an operation that runs hooks, and `Entered` what a
closure takes when it is opened.

* `act_turn` — every step makes a turn. The theorems about runs are proved by cases on it, or on what
  is derived from it.
* `call_done`, `call_running` — what a call is when it is done, and when it is not.
* `hooksFor_of_mayTake` — a thread that may take the registry's lock may list the hooks too, so an
  operation that has changed a registry never fails to list them.
-/

namespace TieredState

namespace ProcessCall

/-- The call creates or destroys instances, and may leave hooks to be run. -/
def isLifecycle : ProcessCall → Bool
  | create _ | spawn _ _ | destroy _ | shutdown => true
  | _ => false

end ProcessCall

/-! ## Locks that are free -/

namespace Held

variable {held : Held} {l : Lock}

/-- Of held locks, the search finds one, whatever it goes by. -/
theorem foldl_isSome {f : Option Lock → Lock → Option Lock} (hf : ∀ best x, (f best x).isSome = true)
    {ls : List Lock} (best : Option Lock) (h : ls ≠ []) : (ls.foldl f best).isSome = true := by
  induction ls generalizing best with
  | nil => exact absurd rfl h
  | cons x ls ih =>
    rw [List.foldl_cons]
    by_cases hrest : ls = []
    · rw [hrest]
      exact hf best x
    · exact ih _ hrest

/-- Nothing stands in the way of a lock that is ranked above every held one. -/
theorem blocking?_eq_none : held.blocking? l = none ↔ ∀ h ∈ held, h.rank < l.rank := by
  have hempty : held.blocking? l = none ↔ held.filter (l.rank ≤ ·.rank) = [] := by
    unfold blocking?
    constructor
    · intro hnone
      by_contra hsome
      have hfound := congrArg Option.isSome hnone
      rw [foldl_isSome ?_ none hsome] at hfound
      · cases hfound
      · intro best x
        cases best with
        | none => rfl
        | some b =>
          dsimp only
          split <;> rfl
    · intro hnil
      rw [hnil]
      rfl
  rw [hempty, List.filter_eq_nil_iff]
  simp only [decide_eq_true_eq, Nat.not_le]

/-- A lock is acquired if all that is held ranks below it, and then it is held last. -/
theorem acquire_ok {held' : Held} :
    held.acquire l = .ok held' ↔ (∀ h ∈ held, h.rank < l.rank) ∧ held' = held ++ [l] := by
  rw [← blocking?_eq_none]
  unfold acquire
  cases held.blocking? l with
  | none => simp [eq_comm]
  | some b => simp

end Held

namespace World

variable {w w' : World} {t : ThreadId} {tok : Token} {l l' : Lock}

/-- A thread may take a lock if all that it holds ranks below it. -/
theorem mayTake_ok {u : Unit} :
    w.mayTake t l = .ok u ↔ ∀ h ∈ (w.thread t).held, h.rank < l.rank := by
  unfold mayTake
  constructor
  · intro h
    split at h
    · next hok => exact (Held.acquire_ok.1 hok).1
    · cases h
  · intro h
    rw [Held.acquire_ok.2 ⟨h, rfl⟩]

/-- A thread that may take a lock may take every lock of a higher rank. -/
theorem mayTake_of_rank_le {u : Unit} (h : w.mayTake t l = .ok u) (hle : l.rank ≤ l'.rank) :
    w.mayTake t l' = .ok () := by
  rw [mayTake_ok] at h ⊢
  intro x hx
  have hlt := h x hx
  omega

/-- The hooks that a process has for an event. -/
def listed (w : World) (tok : Token) (e : HookEvent) : List CallbackId :=
  ((w.processes.get? tok).map fun p => p.hooks.snapshot e).getD []

/-- The hooks of an event can be listed when every lock that the thread holds ranks below the
registry's. -/
theorem hooksFor_ok (h : ∀ x ∈ (w.thread t).held, x.rank < Lock.registry.rank) (tok : Token)
    (e : HookEvent) : w.hooksFor t tok e = .ok (w.listed tok e) := by
  have hmay : w.mayTake t .hooks = .ok () :=
    mayTake_of_rank_le (mayTake_ok.2 h : w.mayTake t .registry = .ok ()) (by decide)
  unfold hooksFor
  rw [hmay]
  rfl

/-- Whoever has taken the registry's lock can list the hooks afterwards, if what it did to the
registry leaves the locks that it holds alone. -/
theorem hooksFor_of_mayTake {u : Unit} (h : w.mayTake t .registry = .ok u)
    (hheld : (w'.thread t).held = (w.thread t).held) (tok : Token) (e : HookEvent) :
    w'.hooksFor t tok e = .ok (w'.listed tok e) := by
  refine hooksFor_ok ?_ tok e
  rw [hheld]
  exact mayTake_ok.1 h

/-! ## What was asked of the registry -/

/-- To register an instance a thread takes the lock of the registry. -/
theorem mayTake_of_enroll {parent? : Option InstanceId} {id : InstanceId}
    (h : w.enroll t tok parent? = (.ok id, w')) :
    w.mayTake t .registry = .ok () ∧ w' = w.enrolled tok parent? ∧ id = ⟨w.nextInstance⟩ := by
  unfold enroll at h
  cases hp : w.live tok with
  | error e =>
    rw [hp] at h
    cases h
  | ok p =>
    rw [hp] at h
    dsimp only at h
    -- the check is made after the identity was drawn, which does not matter to it
    have hdraw : ({ w with nextInstance := w.nextInstance + 1 } : World).mayTake t .registry =
        w.mayTake t .registry := rfl
    rw [hdraw] at h
    split at h
    · cases h
    · next hmay =>
      split at h
      · cases h
      · obtain ⟨hid, hw⟩ := Prod.mk.inj h
        exact ⟨hmay, hw.symm, (Except.ok.inj hid).symm⟩

/-- To take an instance from its registry a thread takes the lock of the registry. -/
theorem mayTake_of_withdraw {id : InstanceId} (h : w.withdraw t tok id = .ok w') :
    w.mayTake t .registry = .ok () := by
  obtain ⟨_, -, h⟩ := bind_eq_ok.1 h
  obtain ⟨_, -, h⟩ := bind_eq_ok.1 h
  obtain ⟨_, hmay, -⟩ := bind_eq_ok.1 h
  exact hmay

/-- To begin a shutdown a thread takes the lock of the registry. -/
theorem mayTake_of_beginShutdown {ids : List InstanceId} (h : w.beginShutdown t tok = .ok (ids, w')) :
    w.mayTake t .registry = .ok () := by
  obtain ⟨_, hmay, -⟩ := bind_eq_ok.1 h
  exact hmay

end World

/-! ## Calls -/

namespace Session

open World

variable {s s' : Session} {ctx : Context} {t : ThreadId} {tok : Token}

/-- How an operation begins that runs hooks: what it has done to the registry of the process, and
the dispatch for its first instance. -/
inductive Begins (s : Session) (t : ThreadId) (tok : Token) : Dispatch → Session → Prop
  | create {parent? : Option InstanceId} {id : InstanceId} {w : World} (as? : Option Name)
    (henroll : s.world.enroll t tok parent? = (.ok id, w)) :
    Begins s t tok ⟨t, tok, id, w.listed tok .created, .create as?, none⟩ (s.withWorld w)
  | destroy {id : InstanceId} {w : World} (hwithdraw : s.world.withdraw t tok id = .ok w) :
    Begins s t tok ⟨t, tok, id, w.listed tok .destroyed, .destroy, none⟩ (s.withWorld w)
  | shutdown {id : InstanceId} {rest : List InstanceId} {w : World}
    (hbegin : s.world.beginShutdown t tok = .ok (id :: rest, w)) :
    Begins s t tok ⟨t, tok, id, w.listed tok .destroyed, .shutdown rest (rest.length + 1), none⟩
      (s.withWorld w)

/-- How a call is done at once. -/
inductive Served (s : Session) (ctx : Context) : Call → Outcome → Session → Prop
  | plain {c : Call} (hplain : ∀ p c', c ≠ .process p c') :
    Served s ctx c (s.plainCall ctx c).1 (s.plainCall ctx c).2
  | process {p : Name} {c : ProcessCall} {tok : Token} {q : Process} (hproc : s.process p = .ok tok)
    (hq : s.world.processes.get? tok = some q) (hc : c.isLifecycle = false) :
    Served s ctx (.process p c) (s.plainProcessCall ctx tok q c).1 (s.plainProcessCall ctx tok q c).2
  /-- The call is refused and changes nothing. -/
  | refused {p : Name} {c : ProcessCall} (f : Fault) : Served s ctx (.process p c) (.error f) s
  /-- A creation is refused, and an identity was drawn for it. -/
  | drawn {p : Name} {c : ProcessCall} {tok : Token} {parent? : Option InstanceId} {e : AccessError}
    (hc : c.isLifecycle = true)
    (henroll : s.world.enroll ctx.thread tok parent? = (.error e, s.world.draw)) :
    Served s ctx (.process p c) (.error (.access e)) (s.withWorld s.world.draw)
  /-- A process without instances is shut down. -/
  | shutdown {p : Name} {tok : Token} {w : World} (hproc : s.process p = .ok tok)
    (hbegin : s.world.beginShutdown ctx.thread tok = .ok ([], w)) :
    Served s ctx (.process p .shutdown) (.ok (.number 0))
      (s.withWorld (w.releaseKey ctx.thread tok))

/-- What a call comes to. -/
inductive Comes (s : Session) (ctx : Context) (c : Call) : Progress → Prop
  | done {o : Outcome} {s' : Session} (h : s.Served ctx c o s') : Comes s ctx c (.done o s')
  | running {p : Name} {c' : ProcessCall} {tok : Token} {d : Dispatch} {s' : Session}
    (hcall : c = .process p c') (hproc : s.process p = .ok tok) (h : s.Begins ctx.thread tok d s') :
    Comes s ctx c (.running d s')

/-- A creation is refused, or begins with the hooks listed. -/
theorem comes_beginCreate {p : Name} {c : ProcessCall} (hc : c.isLifecycle = true)
    (hproc : s.process p = .ok tok) (as? : Option Name) (parent? : Option InstanceId) :
    s.Comes ctx (.process p c)
      (s.beginCreate ctx.thread tok as? (s.world.enroll ctx.thread tok parent?)) := by
  unfold beginCreate
  rcases enroll_cases s.world ctx.thread tok parent? with ⟨e, heq⟩ | ⟨e, heq⟩ | ⟨q, -, -, heq⟩
  · rw [heq]
    exact .done (.refused (.access e))
  · rw [heq]
    exact .done (.drawn hc heq)
  · obtain ⟨hmay, -, -⟩ := mayTake_of_enroll heq
    -- the lock of the registry was free, so that of the hooks is, which ranks above it
    have hheld : ((s.world.enrolled tok parent?).thread ctx.thread).held =
        (s.world.thread ctx.thread).held := rfl
    have hhooks := hooksFor_of_mayTake hmay hheld tok .created
    rw [heq]
    dsimp only
    rw [world_withWorld, hhooks]
    exact .running rfl hproc (.create as? heq)

/-- A destruction is refused, or it begins with the instance taken from its registry. -/
theorem comes_beginDestroy {p : Name} {c : ProcessCall} (hproc : s.process p = .ok tok)
    (id : InstanceId) :
    s.Comes ctx (.process p c) (s.beginDestroy ctx.thread tok id) := by
  unfold beginDestroy
  cases hw : s.world.withdraw ctx.thread tok id with
  | error e => exact .done (.refused (.access e))
  | ok w =>
    obtain ⟨q, -, -, -, rfl⟩ := withdraw_ok hw
    have hheld : ((s.world.modifyProcess tok (withdrawn id)).thread ctx.thread).held =
        (s.world.thread ctx.thread).held := rfl
    have hhooks := hooksFor_of_mayTake (mayTake_of_withdraw hw) hheld tok .destroyed
    dsimp only
    unfold beginTearDown
    rw [world_withWorld, hhooks]
    exact .running rfl hproc (.destroy hw)

/-- A process without instances is shut down at once. -/
theorem beginShutdown_nil {w : World} (hw : s.world.beginShutdown t tok = .ok ([], w)) :
    s.beginShutdown t tok = .done (.ok (.number 0)) (s.withWorld (w.releaseKey t tok)) := by
  unfold beginShutdown
  rw [hw]
  rfl

/-- A shutdown begins with the newest instance, for which the hooks are listed. -/
theorem beginShutdown_cons {id : InstanceId} {rest : List InstanceId} {w : World}
    (hw : s.world.beginShutdown t tok = .ok (id :: rest, w)) :
    s.beginShutdown t tok = .running
      ⟨t, tok, id, w.listed tok .destroyed, .shutdown rest (rest.length + 1), none⟩
      (s.withWorld w) := by
  have hmay := mayTake_of_beginShutdown hw
  unfold beginShutdown
  rw [hw]
  obtain ⟨q, -, -, rfl⟩ := beginShutdown_ok hw
  have hheld : ((s.world.modifyProcess tok (drained q.registry)).thread t).held =
      (s.world.thread t).held := rfl
  have hhooks := hooksFor_of_mayTake hmay hheld tok .destroyed
  dsimp only [continueShutdown]
  unfold beginTearDown
  rw [world_withWorld, hhooks]
  rfl

/-- A shutdown is refused, or done at once where there are no instances, or it begins. -/
theorem comes_beginShutdown {p : Name} (hproc : s.process p = .ok tok) :
    s.Comes ctx (.process p .shutdown) (s.beginShutdown ctx.thread tok) := by
  cases hw : s.world.beginShutdown ctx.thread tok with
  | error e =>
    unfold beginShutdown
    rw [hw]
    exact .done (.refused (.access e))
  | ok r =>
    obtain ⟨ids, w⟩ := r
    cases ids with
    | nil =>
      rw [beginShutdown_nil hw]
      exact .done (.shutdown hproc hw)
    | cons id rest =>
      rw [beginShutdown_cons hw]
      exact .running rfl hproc (.shutdown hw)

/-- Every call to a process comes to one of these. -/
theorem comes_processCall {p : Name} (hproc : s.process p = .ok tok) (c : ProcessCall) :
    s.Comes ctx (.process p c) (s.processCall ctx tok c) := by
  cases c with
  | create as? => exact comes_beginCreate rfl hproc as? none
  | spawn parent as? =>
    simp only [processCall]
    split
    · exact .done (.refused _)
    · unfold enrollChild
      split
      · exact .done (.refused _)
      · split
        · exact .done (.refused _)
        · exact comes_beginCreate rfl hproc as? _
  | destroy i =>
    simp only [processCall]
    split
    · exact .done (.refused _)
    · exact comes_beginDestroy hproc _
  | shutdown => exact comes_beginShutdown hproc
  | _ =>
    simp only [processCall]
    split
    · exact .done (.refused _)
    · next q hq => exact .done (.process hproc hq rfl)

/-- Every call is done at once, or begins an operation that runs hooks. -/
theorem comes_call (s : Session) (ctx : Context) (c : Call) : s.Comes ctx c (s.call ctx c) := by
  cases c with
  | process p c =>
    simp only [call]
    split
    · next tok hproc => exact comes_processCall hproc c
    · exact .done (.refused _)
  | _ => exact .done (.plain fun _ _ => nofun)

/-- A call on a process that runs no hooks is done at once. -/
theorem call_of_plain {p : Name} {c : ProcessCall} {q : Process} (hproc : s.process p = .ok tok)
    (hq : s.world.processes.get? tok = some q) (hc : c.isLifecycle = false) :
    s.call ctx (.process p c) =
      .done (s.plainProcessCall ctx tok q c).1 (s.plainProcessCall ctx tok q c).2 := by
  simp only [call]
  rw [hproc]
  dsimp only
  cases c
  case create | spawn | destroy | shutdown => cases hc
  all_goals
    simp only [processCall]
    rw [hq]

/-- A call that is done has been served. -/
theorem call_done {c : Call} {o : Outcome} (h : s.call ctx c = .done o s') : s.Served ctx c o s' := by
  have hcomes := comes_call s ctx c
  rw [h] at hcomes
  cases hcomes with
  | done hserved => exact hserved

/-- A call that runs hooks is one to a process, and has begun an operation. -/
theorem call_running {c : Call} {d : Dispatch} (h : s.call ctx c = .running d s') :
    ∃ p c' tok, c = .process p c' ∧ s.process p = .ok tok ∧ s.Begins ctx.thread tok d s' := by
  have hcomes := comes_call s ctx c
  rw [h] at hcomes
  cases hcomes with
  | running hcall hproc hbegins => exact ⟨_, _, _, hcall, hproc, hbegins⟩

/-! ## Operations that go on -/

/-- How an operation goes on when the hooks for its instance have run. -/
inductive Finishes (s : Session) (d : Dispatch) : Progress → Prop
  | create {as? : Option Name} (htask : d.task = .create as?) :
    Finishes s d (.done (.ok (.identity (some d.target))) (s.keepInstance as? d.target))
  | destroy (htask : d.task = .destroy) :
    Finishes s d (.done (outcomeOf d.failure? .nothing)
      (s.withWorld (s.world.tearDown d.thread d.process d.target)))
  /-- A shutdown ends with its last instance. -/
  | shutdown {count : Nat} (htask : d.task = .shutdown [] count) :
    Finishes s d (.done (outcomeOf d.failure? (.number count)) (s.withWorld
      ((s.world.tearDown d.thread d.process d.target).releaseKey d.thread d.process)))
  /-- A shutdown comes to its next instance. -/
  | next {id : InstanceId} {rest : List InstanceId} {count : Nat}
    (htask : d.task = .shutdown (id :: rest) count) :
    Finishes s d (.running
      ((s.withWorld (s.world.tearDown d.thread d.process d.target)).beginTearDown d.thread d.process
        id (.shutdown rest count) d.failure?)
      (s.withWorld (s.world.tearDown d.thread d.process d.target)))

/-- An operation goes on in the way that its task has. -/
theorem finishes_of_finish {d : Dispatch} {p : Progress} (h : s.finish d = p) : s.Finishes d p := by
  rw [← h]
  unfold finish
  cases htask : d.task with
  | create as? => exact .create htask
  | destroy => exact .destroy htask
  | shutdown rest count =>
    cases rest with
    | nil => exact .shutdown htask
    | cons id rest => exact .next htask

/-! ## Closures -/

/-- What an error leaves is nothing. -/
theorem toOption_eq_some {ε α : Type} {r : Except ε α} {a : α} : r.toOption = some a ↔ r = .ok a := by
  cases r <;> simp [Except.toOption]

/-- A closure is not opened when its access is refused. -/
theorem opened_error {α : Type} {r : Except AccessError (α × World)} {f : α → Body}
    {e : AccessError} (h : r = .error e) : s.opened r f = .error (.access e) := by
  rw [h]
  rfl

/-- A closure that is opened got its access. -/
theorem opened_ok {α : Type} {r : Except AccessError (α × World)} {f : α → Body} {b : Body}
    (h : s.opened r f = .ok (b, s')) : ∃ a w, r = .ok (a, w) ∧ b = f a ∧ s' = s.withWorld w := by
  unfold opened at h
  split at h
  · next a w =>
    obtain ⟨rfl, rfl⟩ := Prod.mk.inj (Except.ok.inj h)
    exact ⟨a, w, rfl, rfl, rfl⟩
  · cases h

/-- A closure that is opened on something named got its access too. -/
theorem opened_map_ok {α : Type} {r : Except AccessError World} {a : α} {f : α → Body} {b : Body}
    (h : s.opened (r.map (a, ·)) f = .ok (b, s')) : ∃ w, r = .ok w ∧ b = f a ∧ s' = s.withWorld w := by
  cases r with
  | error e => cases h
  | ok w =>
    obtain ⟨_, _, hr, hb, hs⟩ := opened_ok h
    obtain ⟨rfl, rfl⟩ := Prod.mk.inj (Except.ok.inj hr)
    exact ⟨w, rfl, hb, hs⟩

/-- What a closure takes when it is opened. -/
inductive Entered (s : Session) (ctx : Context) (steps : List Step) : Body → Session → Prop
  | lock {l : Lock} {w : World} (focus : Focus) (tokens : List Token) (ids : List InstanceId)
    (htake : s.world.take ctx.thread l = .ok w) :
    Entered s ctx steps (lockedBody ctx l focus tokens ids steps) (s.withWorld w)
  | storage {h : Handle} {w : World} (tokens : List Token)
    (hborrow : s.world.borrow ctx.thread h = .ok w) :
    Entered s ctx steps (borrowedBody ctx h tokens steps) (s.withWorld w)
  | attempt : Entered s ctx steps { owner := .attempt, context := ctx, pending := steps } s

/-- A closure that is opened has taken a lock, or a storage, or nothing. -/
theorem entered_of_enter {o : Opening} {steps : List Step} {b : Body}
    (h : s.enter ctx o steps = .ok (b, s')) : s.Entered ctx steps b s' := by
  unfold enter at h
  -- each opening looks its names up, and then takes what its body gives back
  cases o with
  | ofInstance i =>
    obtain ⟨id, -, h⟩ := bind_eq_ok.1 h
    obtain ⟨w, hw, rfl, rfl⟩ := opened_map_ok h
    obtain ⟨_, -, htake⟩ := bind_eq_ok.1 hw
    exact .lock _ _ _ htake
  | ofCurrent p =>
    obtain ⟨tok, -, h⟩ := bind_eq_ok.1 h
    obtain ⟨id, w, hw, rfl, rfl⟩ := opened_ok h
    obtain ⟨id', -, hw⟩ := bind_eq_ok.1 hw
    obtain ⟨w', hw', hw⟩ := bind_eq_ok.1 hw
    obtain ⟨rfl, rfl⟩ := Prod.mk.inj (Except.ok.inj hw)
    obtain ⟨_, -, htake⟩ := bind_eq_ok.1 hw'
    exact .lock _ _ _ htake
  | ofThread p =>
    obtain ⟨tok, -, h⟩ := bind_eq_ok.1 h
    obtain ⟨handle, w, hw, rfl, rfl⟩ := opened_ok h
    obtain ⟨handle', -, hw⟩ := bind_eq_ok.1 hw
    obtain ⟨w', hw', hw⟩ := bind_eq_ok.1 hw
    obtain ⟨rfl, rfl⟩ := Prod.mk.inj (Except.ok.inj hw)
    exact .storage _ hw'
  | ofHandle n =>
    obtain ⟨handle, -, h⟩ := bind_eq_ok.1 h
    obtain ⟨w, hw, rfl, rfl⟩ := opened_map_ok h
    exact .storage _ hw
  | ofShared p shared =>
    obtain ⟨tok, -, h⟩ := bind_eq_ok.1 h
    obtain ⟨w, hw, rfl, rfl⟩ := opened_map_ok h
    exact .lock _ _ _ hw
  | ofCell c =>
    obtain ⟨⟨id, cell⟩, -, h⟩ := bind_eq_ok.1 h
    dsimp only at h
    split at h
    · cases h
    · obtain ⟨w, hw, rfl, rfl⟩ := opened_map_ok h
      exact .lock _ _ _ hw
  | ofCellRead c =>
    obtain ⟨⟨id, cell⟩, -, h⟩ := bind_eq_ok.1 h
    dsimp only at h
    split at h
    · cases h
    · obtain ⟨w, hw, rfl, rfl⟩ := opened_map_ok h
      exact .lock _ _ _ hw
  | attempt =>
    obtain ⟨rfl, rfl⟩ := Prod.mk.inj (Except.ok.inj h)
    exact .attempt

end Session

/-! ## Scenes -/

namespace Frame

/-- The frame without the steps of a body, be they taken or not. -/
def shell : Frame → Frame
  | body b => body { b with pending := [], done := [] }
  | dispatch d job => dispatch d job

@[simp] theorem tokens_shell (f : Frame) : f.shell.tokens = f.tokens := by cases f <;> rfl

@[simp] theorem ids_shell (f : Frame) : f.shell.ids = f.ids := by cases f <;> rfl

@[simp] theorem charges_shell (f : Frame) : f.shell.charges = f.charges := by cases f <;> rfl

@[simp] theorem uses_shell (f : Frame) : f.shell.uses = f.uses := by cases f <;> rfl

@[simp] theorem closing_shell (f : Frame) : f.shell.closing = f.closing := by cases f <;> rfl

/-- What frames have apart from steps, their shells have. -/
theorem flatMap_shell {α : Type} {g : Frame → List α} (hg : ∀ f, g f.shell = g f)
    (stack : List Frame) : (stack.map shell).flatMap g = stack.flatMap g := by
  rw [List.flatMap_map]
  exact List.flatMap_congr fun f _ => hg f

end Frame

/-- The session that a call comes to. -/
def Progress.session : Progress → Session
  | done _ s => s
  | running _ s => s

/-- The session without the events to be reported. -/
def Session.silent (s : Session) : Session := { s with events := [] }

/-- What is left of a machine when steps, outcomes and reports are left out of account: the session,
and the stack of what is under way. -/
structure Scene where
  session : Session
  stack : List Frame

/-- The scene of a session with a stack. -/
def Scene.of (s : Session) (stack : List Frame) : Scene := ⟨s.silent, stack.map Frame.shell⟩

theorem Scene.of_congr {stack stack' : List Frame}
    (h : stack.map Frame.shell = stack'.map Frame.shell) (s : Session) :
    Scene.of s stack = .of s stack' :=
  congrArg (Scene.mk s.silent) h

/-- The scene when a call has come as far as it comes. -/
def Progress.scene (stack : List Frame) (job : Bool) : Progress → Scene
  | done _ s => .of s stack
  | running d s => .of s (.dispatch d job :: stack)

/-- The body of a hook that runs its steps, if it runs them. -/
def Callback.bodies (c : Callback) (d : Dispatch) : List Frame :=
  if c.runs then
    [.body {
      owner := .hook c.tag d.target
      context := { thread := d.thread, self? := some d.target }
      pending := c.body }]
  else []

/-- The session in which the code of a hook was called once more. -/
def Session.called (s : Session) (id : CallbackId) (c : Callback) : Session :=
  { s with callbacks := s.callbacks.insert id c.called }

namespace Machine

open Session

def scene (m : Machine) : Scene := .of m.session m.stack

variable {m : Machine}

/-- A machine with this session and with frames of this shape is at this scene. -/
theorem scene_of_parts {s : Session} {stack : List Frame} (hsession : m.session = s)
    (hstack : m.stack.map Frame.shell = stack.map Frame.shell) : m.scene = .of s stack := by
  unfold scene
  rw [hsession]
  exact Scene.of_congr hstack s

/-- What frames have apart from steps can be read off the scene. -/
theorem flatMap_of_scene {α : Type} {g : Frame → List α} (hg : ∀ f, g f.shell = g f) {s : Session}
    {stack : List Frame} (h : m.scene = .of s stack) : m.stack.flatMap g = stack.flatMap g := by
  have hstack : m.stack.map Frame.shell = stack.map Frame.shell := congrArg Scene.stack h
  rw [← Frame.flatMap_shell hg, hstack, Frame.flatMap_shell hg]

@[simp] theorem scene_deliver (m : Machine) (o : Outcome) : (m.deliver o).scene = m.scene := by
  obtain ⟨session, stack, script, reports⟩ := m
  unfold deliver
  cases stack with
  | nil => rfl
  | cons f below => cases f <;> rfl

@[simp] theorem scene_redirect (m : Machine) (steps : List Step) :
    (m.redirect steps).scene = m.scene := by
  obtain ⟨session, stack, script, reports⟩ := m
  unfold redirect
  cases stack with
  | nil => rfl
  | cons f below => cases f <;> rfl

/-- An operation that goes on leaves its dispatch on the stack. -/
theorem scene_proceed (m : Machine) (job : Bool) (p : Progress) :
    (m.proceed job p).scene = p.scene m.stack job := by
  cases p with
  | done o s =>
    rw [proceed, scene_deliver]
    rfl
  | running d s => rfl

/-- The session in which the next step finds its thread. -/
def opening (m : Machine) (ctx : Context) : Session := m.session.touch ctx.thread

/-- What the next step of a machine does to its scene. -/
inductive Turn (m : Machine) : Scene → Prop
  /-- There is no next step. -/
  | idle (hstack : m.stack = []) (hnext : m.next? = none) : Turn m m.scene
  /-- The step is a call that is done at once. -/
  | served {ctx : Context} {c : Call} {o : Outcome} {s : Session}
    (hcall : m.nextCall? = some (ctx, c)) (hdone : (m.opening ctx).call ctx c = .done o s)
    (h : (m.opening ctx).Served ctx c o s) : Turn m (.of s m.stack)
  /-- The step is a call that begins an operation. -/
  | begins {ctx : Context} {p : Name} {c : ProcessCall} {tok : Token} {d : Dispatch} {s : Session}
    (job : Bool) (hcall : m.nextCall? = some (ctx, .process p c))
    (hproc : m.session.process p = .ok tok)
    (hrunning : (m.opening ctx).call ctx (.process p c) = .running d s)
    (h : (m.opening ctx).Begins ctx.thread tok d s) : Turn m (.of s (.dispatch d job :: m.stack))
  /-- The step is a closure that is refused, or the failure of a worker. -/
  | refused {ctx : Context} {step : Step} (hnext : m.next? = some (ctx, step))
    (hcall : ∀ c, m.nextCall? = some (ctx, c) → c = .fail) : Turn m (.of (m.opening ctx) m.stack)
  | opens {ctx : Context} {on? : Option String} {o : Opening} {steps : List Step} {b : Body}
    {s : Session} (job : Bool) (hnext : m.next? = some (ctx, .closure on? o steps))
    (h : (m.opening ctx).enter ctx o steps = .ok (b, s)) :
    Turn m (.of s (.body { b with job } :: m.stack))
  | registers {ctx : Context} {on? : Option String} {r : HookRequest} {steps : List Step}
    (hnext : m.next? = some (ctx, .register on? r steps)) :
    Turn m (.of ((m.opening ctx).registerHook ctx r steps).2 m.stack)
  /-- The step is a failure that unwinds. -/
  | fails {ctx : Context} (hnext : m.next? = some (ctx, .call none .fail)) :
    Turn m (.of (unwind (m.opening ctx) m.stack).1 (unwind (m.opening ctx) m.stack).2)
  /-- The body on top ends. -/
  | closes {b : Body} {below : List Frame} (hstack : m.stack = .body b :: below)
    (hpending : b.pending = []) : Turn m (.of (m.session.undo b) below)
  /-- A hook without code is passed over. -/
  | skips {d : Dispatch} {job : Bool} {below : List Frame} {id : CallbackId} {rest : List CallbackId}
    (hstack : m.stack = .dispatch d job :: below) (hpending : d.pending = id :: rest)
    (hnone : m.session.callbacks.get? id = none) :
    Turn m (.of m.session (.dispatch { d with pending := rest } job :: below))
  /-- A hook is called. -/
  | calls {d : Dispatch} {job : Bool} {below : List Frame} {id : CallbackId} {rest : List CallbackId}
    {c : Callback} (hstack : m.stack = .dispatch d job :: below) (hpending : d.pending = id :: rest)
    (hcallback : m.session.callbacks.get? id = some c) :
    Turn m (.of (m.session.called id c)
      (c.bodies d ++ .dispatch { d with pending := rest } job :: below))
  /-- The operation is done. -/
  | finishes {d : Dispatch} {job : Bool} {below : List Frame} {o : Outcome} {s : Session}
    (hstack : m.stack = .dispatch d job :: below) (hfin : m.finishing? = some d)
    (hdone : m.session.finish d = .done o s) : Turn m (.of s below)
  /-- The operation goes on with another instance. -/
  | goesOn {d d' : Dispatch} {job : Bool} {below : List Frame} {s : Session}
    (hstack : m.stack = .dispatch d job :: below) (hfin : m.finishing? = some d)
    (hrunning : m.session.finish d = .running d' s) : Turn m (.of s (.dispatch d' job :: below))

/-- When the hooks of an operation have run, the next step goes on with it. -/
theorem act_of_finishing? {d : Dispatch} (h : m.finishing? = some d) :
    ∃ job below, m.stack = .dispatch d job :: below ∧
      m.act = ({ m with stack := below } : Machine).proceed job (m.session.finish d) := by
  unfold finishing? at h
  split at h
  · next d' job below hstack =>
    split at h
    · next hpending =>
      obtain rfl := Option.some.inj h
      refine ⟨job, below, hstack, ?_⟩
      unfold act
      rw [hstack]
      dsimp only
      unfold advance
      rw [hpending]
    · cases h
  · cases h

/-- What holds of a session and the frames under way, and is kept when the innermost frame goes, holds
when they are unwound. A body that goes is undone. -/
theorem unwind_induction {P : Session → List Frame → Prop} {s : Session} {stack : List Frame}
    (hbody : ∀ s b below, P s (.body b :: below) → P (s.undo b) below)
    (hdispatch : ∀ s d job below, P s (.dispatch d job :: below) → P s below) (h : P s stack) :
    P (unwind s stack).1 (unwind s stack).2 := by
  induction stack generalizing s with
  | nil => exact h
  | cons f below ih =>
    cases f with
    | body b =>
      have hbelow := hbody s b below h
      unfold unwind
      dsimp only
      split
      · exact hbelow
      · exact ih hbelow
    | dispatch d job =>
      have hbelow := hdispatch s d job below h
      unfold unwind
      split
      · exact hbelow
      · exact ih hbelow

/-- The next step is taken of a machine that differs from this one in its steps only. -/
theorem act_of_next? {ctx : Context} {step : Step} (h : m.next? = some (ctx, step)) :
    ∃ m₁ : Machine, m₁.session = m.opening ctx ∧ m₁.stack.map Frame.shell = m.stack.map Frame.shell ∧
      (∀ s, unwind s m₁.stack = unwind s m.stack) ∧ m.act = m₁.perform ctx step.on?.isSome step := by
  -- a step that names a worker is a job of it, whatever the context is
  have hjob : ∀ ctx : Context, (contextOf ctx step).2 = step.on?.isSome := by
    intro ctx
    unfold contextOf
    cases step.on? <;> rfl
  unfold next? at h
  unfold act
  cases hstack : m.stack with
  | nil =>
    rw [hstack] at h
    obtain ⟨step', hhead, heq⟩ := Option.map_eq_some_iff.1 h
    obtain ⟨rest, hscript⟩ := List.head?_eq_some_iff.1 hhead
    obtain ⟨rfl, rfl⟩ := Prod.mk.inj heq
    dsimp only
    rw [hscript]
    unfold take
    rw [← hjob { thread := .main }]
    exact ⟨_, rfl, by rw [← hstack], fun _ => by rw [← hstack], rfl⟩
  | cons f below =>
    rw [hstack] at h
    cases f with
    | dispatch d job => cases h
    | body b =>
      obtain ⟨step', hhead, heq⟩ := Option.map_eq_some_iff.1 h
      obtain ⟨rest, hpending⟩ := List.head?_eq_some_iff.1 hhead
      obtain ⟨rfl, rfl⟩ := Prod.mk.inj heq
      dsimp only
      rw [hpending]
      unfold take
      rw [← hjob b.context]
      exact ⟨_, rfl, rfl, fun _ => rfl, rfl⟩

/-- What a name stands for does not depend on the threads there are. -/
theorem process_opening (m : Machine) (ctx : Context) (p : Name) :
    (m.opening ctx).process p = m.session.process p := rfl

/-- A call goes on as far as it comes. -/
theorem perform_call {c : Call} (hfail : c ≠ .fail) (ctx : Context) (job : Bool)
    (on? : Option String) : m.perform ctx job (.call on? c) = m.proceed job (m.session.call ctx c) := by
  unfold perform
  cases c <;> first | rfl | exact absurd rfl hfail

/-- A call other than a failure goes as far as it comes. -/
theorem act_of_nextCall? {ctx : Context} {c : Call} (h : m.nextCall? = some (ctx, c))
    (hfail : c ≠ .fail) :
    ∃ job, m.act.scene = ((m.opening ctx).call ctx c).scene m.stack job := by
  obtain ⟨on?, hnext⟩ := next?_of_nextCall? h
  obtain ⟨m₁, hsession, hstack, -, hact⟩ := act_of_next? hnext
  have hperform : m.act = m₁.proceed (Step.call on? c).on?.isSome ((m.opening ctx).call ctx c) := by
    rw [hact, perform_call hfail, hsession]
  -- `m₁` has taken the step off a body, which the scene does not tell
  refine ⟨(Step.call on? c).on?.isSome, ?_⟩
  rw [hperform, scene_proceed]
  cases (m.opening ctx).call ctx c with
  | done o s => exact Scene.of_congr hstack s
  | running d s =>
    refine Scene.of_congr ?_ s
    rw [List.map_cons, List.map_cons, hstack]

/-- A call without an operation changes the session and leaves the stack alone. -/
theorem act_of_plain {ctx : Context} {p : Name} {c : ProcessCall} {tok : Token} {q : Process}
    (h : m.nextCall? = some (ctx, .process p c)) (hproc : m.session.process p = .ok tok)
    (hq : m.session.world.processes.get? tok = some q) (hc : c.isLifecycle = false) :
    m.act.scene = .of ((m.opening ctx).plainProcessCall ctx tok q c).2 m.stack := by
  obtain ⟨job, hscene⟩ := act_of_nextCall? h nofun
  have hcall : (m.opening ctx).call ctx (.process p c) = _ := call_of_plain hproc hq hc
  rw [hscene, hcall]
  rfl

/-- A call of the step at hand is served or begins an operation. -/
theorem turn_call {ctx : Context} {c : Call} (h : m.nextCall? = some (ctx, c)) (hfail : c ≠ .fail) :
    Turn m m.act.scene := by
  obtain ⟨job, hscene⟩ := act_of_nextCall? h hfail
  rw [hscene]
  cases hprogress : (m.opening ctx).call ctx c with
  | done o s => exact .served h hprogress (call_done hprogress)
  | running d s =>
    obtain ⟨p, c', tok, rfl, hproc, hbegins⟩ := call_running hprogress
    exact .begins job h hproc hprogress hbegins

/-- A dispatch calls its next hook, or its operation goes on. -/
theorem turn_advance {d : Dispatch} {job : Bool} {below : List Frame}
    (hstack : m.stack = .dispatch d job :: below) : Turn m (m.advance d job below).scene := by
  unfold advance
  split
  · next hpending =>
    have hfin : m.finishing? = some d := by
      unfold finishing?
      rw [hstack]
      exact if_pos hpending
    rw [scene_proceed]
    cases hfinish : m.session.finish d with
    | done o s => exact .finishes hstack hfin hfinish
    | running d' s => exact .goesOn hstack hfin hfinish
  · next id rest hpending =>
    dsimp only
    -- a hook whose code is not there is skipped, and one that has nothing to run opens no body
    split
    · next hnone => exact .skips hstack hpending hnone
    · next c hcallback =>
      have hcalls : Turn m (.of (m.session.called id c)
          (c.bodies d ++ .dispatch { d with pending := rest } job :: below)) :=
        .calls hstack hpending hcallback
      unfold Callback.bodies at hcalls
      split
      · next hruns =>
        rw [if_pos hruns] at hcalls
        exact hcalls
      · next hruns =>
        rw [if_neg hruns] at hcalls
        exact hcalls

/-- A worker that fails ends with its failure. Any other code that fails is unwound. -/
theorem turn_fail {ctx : Context} {on? : Option String} (h : m.next? = some (ctx, .call on? .fail)) :
    Turn m m.act.scene := by
  obtain ⟨m₁, hsession, hstack, hunwind, hact⟩ := act_of_next? h
  rw [hact]
  cases on? with
  | some name =>
    have hscene : (m₁.deliver (.error .failed)).scene = .of (m.opening ctx) m.stack := by
      rw [scene_deliver, scene_of_parts hsession hstack]
    have honly : ∀ c, m.nextCall? = some (ctx, c) → c = .fail := by
      intro c hcall
      rw [nextCall?_of_call h] at hcall
      exact (Prod.mk.inj (Option.some.inj hcall)).2.symm
    show Turn m (m₁.deliver (.error .failed)).scene
    rw [hscene]
    exact .refused h honly
  | none =>
    show Turn m m₁.fail.scene
    unfold fail
    rw [scene_deliver, hsession, hunwind]
    exact .fails h

/-- A closure is refused, or is opened with what it takes. -/
theorem turn_closure {ctx : Context} {on? : Option String} {o : Opening} {steps : List Step}
    (h : m.next? = some (ctx, .closure on? o steps)) : Turn m m.act.scene := by
  obtain ⟨m₁, hsession, hstack, -, hact⟩ := act_of_next? h
  rw [hact]
  unfold perform
  dsimp only
  rw [hsession]
  split
  · rw [scene_deliver, scene_of_parts hsession hstack]
    refine .refused h fun c hcall => ?_
    rw [nextCall?_of_next? h nofun] at hcall
    cases hcall
  · next b s hent =>
    -- the frames below the new body are told apart from those of `m` by steps only
    have hopens := Turn.opens (Step.closure on? o steps).on?.isSome h hent
    unfold Scene.of at hopens
    rw [List.map_cons, ← hstack] at hopens
    exact hopens

/-- To register a hook leaves the stack alone. -/
theorem act_of_register {ctx : Context} {on? : Option String} {r : HookRequest} {steps : List Step}
    (h : m.next? = some (ctx, .register on? r steps)) :
    m.act.scene = .of ((m.opening ctx).registerHook ctx r steps).2 m.stack := by
  obtain ⟨m₁, hsession, hstack, -, hact⟩ := act_of_next? h
  rw [hact]
  unfold perform
  dsimp only
  rw [scene_deliver, hsession]
  exact Scene.of_congr hstack _

/-- To register a hook is a turn of its own. -/
theorem turn_register {ctx : Context} {on? : Option String} {r : HookRequest} {steps : List Step}
    (h : m.next? = some (ctx, .register on? r steps)) : Turn m m.act.scene := by
  rw [act_of_register h]
  exact .registers h

/-- Without a step to take, what is on top of the stack goes on. -/
theorem turn_none (hnext : m.next? = none) : Turn m m.act.scene := by
  unfold next? at hnext
  unfold act
  split
  · next b below hstack =>
    rw [hstack] at hnext
    have hpending : b.pending = [] := List.head?_eq_none_iff.1 (Option.map_eq_none_iff.1 hnext)
    rw [hpending]
    dsimp only
    unfold close
    dsimp only
    -- the body of a hook reports what it did, any other delivers it; the scene is the same
    split
    · exact .closes hstack hpending
    · rw [scene_deliver]
      exact .closes hstack hpending
  · next d job below hstack => exact turn_advance hstack
  · next hstack =>
    rw [hstack] at hnext
    have hscript : m.script = [] := List.head?_eq_none_iff.1 (Option.map_eq_none_iff.1 hnext)
    rw [hscript]
    refine .idle hstack ?_
    unfold next?
    rw [hstack, hscript]
    rfl

/-- Every step makes a turn. -/
theorem act_turn (m : Machine) : Turn m m.act.scene := by
  cases hnext : m.next? with
  | none => exact turn_none hnext
  | some r =>
    obtain ⟨ctx, step⟩ := r
    cases step with
    | call on? c =>
      by_cases hfail : c = .fail
      · subst hfail
        exact turn_fail hnext
      · exact turn_call (nextCall?_of_call hnext) hfail
    | closure on? o steps => exact turn_closure hnext
    | register on? r steps => exact turn_register hnext

end Machine

end TieredState
