import TieredState.Proofs.Accesses
import TieredState.Proofs.Episodes
import TieredState.Proofs.Teardown

/-!
# What a thread holds when a hook runs

An operation that runs hooks gives back the locks that it takes itself, of the registry and of the
hooks, before the first of them is called. What its caller holds it cannot give back. The lock of an
instance ranks below that of the registry, so an operation succeeds within a closure on the variables
of an instance, and its hooks run with that lock held: they can take no instance's lock then, not even
that of the instance that was just made.

* `dispatch_of_keeps` — an operation stays where it is on the stack as long as it goes on.
* `hook_takes_instance` — a hook is refused the variables of an instance that is live exactly when its
  thread held something when the operation was called, or holds something for the hook's own closures.
* `refused_within_closure` — this happens to a hook for the instance that it was called for.
-/

namespace TieredState.Machine

open World Session

variable {allowed : Machine → Bool} {m m' : Machine} {ctx : Context} {base own : List Frame}
  {id : InstanceId}

/-! ## Operations that go on -/

/-- The frames have an operation on top, with `base` below it. -/
def Carries (base fs : List Frame) : Prop := ∃ d job, .dispatch d job :: base <:+ fs

/-- As long as nothing below an operation is left on top, the operation is where it was. -/
theorem Reframes.carries {fs fs' : List Frame} (h : Reframes fs fs') (hbase : Carries base fs)
    (hlength : base.length < fs'.length) : Carries base fs' := by
  obtain ⟨d, job, hsuffix⟩ := hbase
  cases h with
  | begins above => exact ⟨d, job, hsuffix.trans (List.suffix_append _ _)⟩
  | ends hends =>
    rcases List.suffix_or_suffix_of_suffix hsuffix hends with hstay | hleave
    · exact ⟨d, job, hstay⟩
    · exact ⟨d, job, hleave.eq_of_length_le hlength ▸ List.suffix_refl _⟩
  | @goesOn d₁ d₂ job' below above =>
    rcases List.suffix_cons_iff.1 hsuffix with heq | hbelow
    · obtain ⟨-, rfl⟩ := List.cons.inj heq
      exact ⟨d₂, job', List.suffix_append _ _⟩
    · exact ⟨d, job, (hbelow.trans (List.suffix_cons _ _)).trans (List.suffix_append _ _)⟩

/-- What is carried is so in every run in which the frames that carry it stay. -/
theorem dispatch_of_keeps (hbase : Carries base m.frames) (hrun : Run allowed m m')
    (hkeeps : ∀ m₁, allowed m₁ = true → m₁.keeps (base.length + 1) = true) :
    Carries base m'.frames := by
  induction hrun with
  | refl => exact hbase
  | @step m₁ _ hallowed ih =>
    refine (reframes_step m₁).carries ih ?_
    rw [length_frames]
    exact of_decide_eq_true (hkeeps m₁ hallowed)
  | redirect _ steps ih =>
    rw [frames_redirect]
    exact ih

/-- An operation that begins was called with every lock that its thread holds ranked below that of the
registry. -/
theorem holds_of_begun {p : Name} {c : ProcessCall} (hcall : m.nextCall? = some (ctx, .process p c))
    (hbegun : m.step.stack.length = m.stack.length + 1) :
    Carries m.frames m.step.frames ∧
      ∀ x ∈ m.session.world.holds ctx.thread, x.rank < Lock.registry.rank := by
  obtain ⟨job, hscene⟩ := act_of_nextCall? hcall nofun
  have hframes : m.step.frames = (((m.opening ctx).call ctx (.process p c)).scene m.stack job).stack :=
    congrArg Scene.stack hscene
  cases hprogress : (m.opening ctx).call ctx (.process p c) with
  | done o s =>
    -- a call that is done at once puts nothing on the stack
    rw [hprogress] at hframes
    have hlength : m.step.stack.length = m.stack.length := by
      rw [← length_frames, ← length_frames, hframes]
      rfl
    omega
  | running d s =>
    rw [hprogress] at hframes
    refine ⟨⟨d, job, hframes ▸ List.suffix_refl _⟩, ?_⟩
    obtain ⟨p', c', tok, -, -, hbegins⟩ := call_running hprogress
    have hmay : (m.opening ctx).world.mayTake ctx.thread .registry = .ok () := by
      cases hbegins with
      | create as? henroll => exact (mayTake_of_enroll henroll).1
      | destroy hwithdraw => exact mayTake_of_withdraw hwithdraw
      | shutdown hbegin => exact mayTake_of_beginShutdown hbegin
    rw [← holds_opening m ctx]
    exact mayTake_ok.1 hmay

/-! ## Hooks -/

/-- The hook that the operation on top of `n` frames is calling: the instance that it was called for,
and what is under way in it. -/
def hookOver? (n : Nat) (m : Machine) : Option (InstanceId × List Frame) :=
  -- the frames from the outermost to the innermost
  match m.frames.reverse.drop n with
  | .dispatch _ _ :: .body b :: own =>
    match b.owner with
    | .hook _ id => some (id, own.reverse)
    | _ => none
  | _ => none

/-- At `m` an operation is called that runs hooks, and at `m'` it is calling a hook for the instance
`id`, with `own` under way in the hook. -/
structure RunsHook (m : Machine) (ctx : Context) (m' : Machine) (id : InstanceId) (own : List Frame) :
    Prop where
  called : ∃ p c, m.nextCall? = some (ctx, .process p c) ∧ c.isLifecycle = true
  begun : m.step.stack.length = m.stack.length + 1
  goesOn : Run (stays (m.stack.length + 1)) m.step m'
  hook : m'.hookOver? m.stack.length = some (id, own)

/-- Below a hook is its operation, and below that what was under way when the operation was called. -/
theorem frames_of_runsHook (h : m.RunsHook ctx m' id own) :
    ∃ b tag d job, b.owner = .hook tag id ∧ m'.frames = own ++ .body b :: .dispatch d job :: m.frames := by
  obtain ⟨p, c, hcall, -⟩ := h.called
  have hstays : ∀ m₁ : Machine, m₁.stays (m.stack.length + 1) = true →
      m₁.keeps (m.frames.length + 1) = true := fun m₁ h => by
    rw [length_frames]
    exact (Bool.and_eq_true_iff.1 h).2
  obtain ⟨d, job, hsuffix⟩ := dispatch_of_keeps (holds_of_begun hcall h.begun).1 h.goesOn hstays
  have hhook := h.hook
  unfold hookOver? at hhook
  split at hhook
  · next d' job' b inner hdrop =>
    split at hhook
    · next tag id' howner =>
      obtain ⟨rfl, rfl⟩ := Prod.mk.inj (Option.some.inj hhook)
      have hlong := hsuffix.length_le
      have hlength : (m'.frames.reverse.take m.stack.length).length = m.frames.length := by
        simp only [List.length_cons, length_frames] at hlong
        simp only [List.length_reverse, List.length_take, length_frames]
        omega
      have hparts := List.take_append_drop m.stack.length m'.frames.reverse
      rw [hdrop] at hparts
      generalize m'.frames.reverse.take m.stack.length = outer at hlength hparts
      have hframes : m'.frames = inner.reverse ++ .body b :: .dispatch d' job' :: outer.reverse := by
        rw [← List.reverse_reverse m'.frames, ← hparts]
        simp
      -- the operation that calls the hook is the one that was called, since it is as far up
      have hbelow : .dispatch d' job' :: outer.reverse <:+ m'.frames :=
        (List.suffix_cons _ _).trans ⟨_, hframes.symm⟩
      have hsame : (Frame.dispatch d' job' :: outer.reverse).length =
          (Frame.dispatch d job :: m.frames).length := by
        rw [List.length_cons, List.length_cons, List.length_reverse, hlength]
      have heq : Frame.dispatch d' job' :: outer.reverse = .dispatch d job :: m.frames := by
        rcases List.suffix_or_suffix_of_suffix hbelow hsuffix with hsub | hsub
        · exact hsub.eq_of_length hsame
        · exact (hsub.eq_of_length hsame.symm).symm
      rw [heq] at hframes
      exact ⟨b, tag, d, job, howner, hframes⟩
    · cases hhook
  · cases hhook

/-- A closure that is opened hands over nothing yet. -/
theorem told?_act_of_enter {on? : Option String} {op : Opening} {steps : List Step} {b : Body}
    {s : Session} (hnext : m.next? = some (ctx, .closure on? op steps))
    (henter : (m.opening ctx).enter ctx op steps = .ok (b, s)) : m.act.told? = none := by
  obtain ⟨m₁, hsession, -, -, hact⟩ := act_of_next? hnext
  have hdone : b.done = [] := by
    cases entered_of_enter henter <;> rfl
  rw [hact]
  unfold perform
  dsimp only
  rw [hsession, henter]
  show b.done.head? = none
  rw [hdone]
  rfl

/-- The variables of an instance are refused for the order of locks exactly when it is live and the
thread holds anything at all, since their lock ranks lowest. -/
theorem lockOrder_iff (hkept : m.Kept) {on? : Option String} {i : Name} {steps : List Step}
    (hnext : m.next? = some (ctx, .closure on? (.ofInstance i) steps))
    (hname : m.session.instanceNamed ctx i = .ok id) :
    (∃ top, m.step.told? = some (.error (.access (.lockOrder top .instanceVars)))) ↔
      m.session.world.isLive id = true ∧ m.session.world.holds ctx.thread ≠ [] := by
  have hname' : (m.opening ctx).instanceNamed ctx i = .ok id := hname
  have hlock : (m.opening ctx).asked? ctx (.closure on? (.ofInstance i) steps) =
      if m.session.world.isLive id then some .instanceVars else none := by
    show ((m.opening ctx).instanceNamed ctx i).toOption.bind _ = _
    rw [hname']
    rfl
  cases hlive : m.session.world.isLive id with
  | false =>
    -- a dead instance is refused for another reason
    have henter : (m.opening ctx).enter ctx (.ofInstance i) steps =
        .error (.access (.instanceDestroyed id)) := by
      have hdead : (m.opening ctx).world.isLive id = false := hlive
      unfold enter
      dsimp only
      rw [hname']
      refine opened_error ?_
      rw [(World.refuses_of_dead hdead).enterInstance]
      rfl
    obtain ⟨htold, -⟩ := told?_act hnext (.inl ⟨on?, _, steps, _, rfl, rfl, rfl, henter⟩)
    have htold' : m.step.told? = some (.error (.access (.instanceDestroyed id))) := htold
    refine iff_of_false ?_ (fun h => nomatch h.1)
    rintro ⟨top, htop⟩
    rw [htold'] at htop
    cases htop
  | true =>
    rw [if_pos hlive] at hlock
    refine ⟨fun ⟨top, htop⟩ => ⟨rfl, fun hnone => ?_⟩, fun ⟨_, hsome⟩ => ?_⟩
    · -- a thread that holds nothing takes the lock
      have hfree : ∀ x ∈ (m.opening ctx).world.holds ctx.thread, x.rank < Lock.instanceVars.rank := by
        rw [holds_opening, hnone]
        exact fun x hx => nomatch hx
      obtain ⟨w, htake⟩ := take_of_lt hfree
      have hasked : (m.opening ctx).lockOf? ctx (.ofInstance i) = some .instanceVars := hlock
      obtain ⟨b, -, henter⟩ := (enter_of_asked hasked steps).started w htake
      have htold : m.step.told? = none := told?_act_of_enter hnext henter
      rw [htold] at htop
      cases htop
    · obtain ⟨x, hx⟩ := List.exists_mem_of_ne_nil _ hsome
      obtain ⟨top, -, -, -, htold, -⟩ :=
        (guardedBy_of_asked hkept hnext hlock).refused ⟨x, hx, Nat.zero_le _⟩
      exact ⟨top, htold⟩

/-- When a hook runs, every thread holds what it held when the hook's operation was called, and then
what the hook's own closures have taken: the operation itself holds nothing. The caller's locks rank
below the registry's. So a hook that asks for the variables of an instance, by whatever name and on
whatever thread, is refused for the order of locks exactly when the instance is live and its thread
held anything when the operation was called, or holds anything for the hook's own closures. -/
theorem hook_takes_instance (hm : Reachable settled m) (h : m.RunsHook ctx m' id own) :
    (∀ t, m'.session.world.holds t = m.session.world.holds t ++ locksOf own t) ∧
    (∀ x ∈ m.session.world.holds ctx.thread, x.rank < Lock.registry.rank) ∧
    ∀ ctx' on? i steps id', m'.next? = some (ctx', .closure on? (.ofInstance i) steps) →
      m'.session.instanceNamed ctx' i = .ok id' →
      ((∃ top, m'.step.told? = some (.error (.access (.lockOrder top .instanceVars)))) ↔
        m'.session.world.isLive id' = true ∧
          (m.session.world.holds ctx'.thread ≠ [] ∨ locksOf own ctx'.thread ≠ [])) := by
  obtain ⟨p, c, hcall, hc⟩ := h.called
  have hsettled : m.settled = true := by
    refine Bool.and_eq_true_iff.1 (settled_of_nextCall? hcall (fun _ => nofun) ctx.thread) |>.1
  have hrun : Run settled m.step m' := h.goesOn.mono fun m₁ h => (Bool.and_eq_true_iff.1 h).1
  have hm' : Reachable settled m' := (hm.run (.step .refl hsettled)).run hrun
  -- what a thread holds is what the frames have taken, and the hook and its dispatch took nothing
  have hholds : ∀ t, m'.session.world.holds t = m.session.world.holds t ++ locksOf own t := by
    intro t
    obtain ⟨b, tag, d, job, howner, hframes⟩ := frames_of_runsHook h
    have hhook : ∀ t, Frame.locks t (.body b) = [] := by
      intro t
      show b.locks t = []
      unfold Body.locks
      rw [howner]
    rw [(balanced_of_reachable hm').tracked, (balanced_of_reachable hm).tracked, hframes]
    have happend : ∀ fs : List Frame, locksOf (own ++ fs) t = locksOf fs t ++ locksOf own t := by
      intro fs
      unfold locksOf
      rw [List.reverse_append, List.flatMap_append]
    rw [happend, locksOf_cons_of_nil hhook, locksOf_dispatch]
  refine ⟨hholds, (holds_of_begun hcall h.begun).2, ?_⟩
  intro ctx' on? i steps id' hnext hname
  rw [lockOrder_iff (kept_of_reachable hm') hnext hname, hholds]
  simp only [ne_eq, List.append_eq_nil_iff, not_and_or]

/-- A program whose hook takes the lock of the instance that it is called for. One instance is created
at top level, and then one within a closure on the variables of the first. -/
def createdWithin : Machine :=
  start default default 0 [
    .call none (.start "p" none),
    .register none ⟨some "p", .created, none, "c", 2⟩ [.closure none (.ofInstance selfName) []],
    .call none (.process "p" (.create (some "i"))),
    .closure none (.ofInstance "i") [.call none (.process "p" (.create (some "j")))]]

/-- The hook of the first creation is not refused, and that of the second one is. -/
theorem refused_for_second :
    (¬ ∃ top, (createdWithin.run 4).step.told? =
      some (.error (.access (.lockOrder top .instanceVars)))) ∧
    ∃ top, (createdWithin.run 11).step.told? =
      some (.error (.access (.lockOrder top .instanceVars))) := by
  constructor
  · have hm : Reachable settled (createdWithin.run 2) := .of_run (by decide +kernel)
    have hruns : (createdWithin.run 2).RunsHook ⟨.main, .nothing, none⟩ (createdWithin.run 4) ⟨1⟩ [] :=
      ⟨⟨"p", .create (some "i"), by rfl, rfl⟩, by decide +kernel, .of_run (n := 1) (by decide +kernel),
        by rfl⟩
    intro hrefused
    have hheld := (((hook_takes_instance hm hruns).2.2 ⟨.main, .nothing, some ⟨1⟩⟩ none selfName [] ⟨1⟩
      (by rfl) (by rfl)).1 hrefused).2
    exact absurd hheld (by decide +kernel)
  · have hm : Reachable settled (createdWithin.run 9) := .of_run (by decide +kernel)
    have hruns : (createdWithin.run 9).RunsHook ⟨.main, .instanceVars ⟨1⟩, none⟩ (createdWithin.run 11)
        ⟨2⟩ [] :=
      ⟨⟨"p", .create (some "j"), by rfl, rfl⟩, by decide +kernel, .of_run (n := 1) (by decide +kernel),
        by rfl⟩
    exact ((hook_takes_instance hm hruns).2.2 ⟨.main, .nothing, some ⟨2⟩⟩ none selfName [] ⟨2⟩
      (by rfl) (by rfl)).2 ⟨by decide +kernel, .inl (by decide +kernel)⟩

/-- It is not so that a hook without closures of its own is never refused the variables of the instance
that it was called for. -/
theorem refused_within_closure :
    ¬ ∀ (m : Machine) (ctx : Context) (m' : Machine) (id : InstanceId) (ctx' : Context)
        (on? : Option String) (i : Name) (steps : List Step) (top : Lock),
      Reachable settled m → m.RunsHook ctx m' id [] →
      m'.next? = some (ctx', .closure on? (.ofInstance i) steps) →
      m'.session.instanceNamed ctx' i = .ok id →
      m'.step.told? ≠ some (.error (.access (.lockOrder top .instanceVars))) := by
  intro hall
  have hm : Reachable settled (createdWithin.run 9) := .of_run (by decide +kernel)
  have hruns : (createdWithin.run 9).RunsHook ⟨.main, .instanceVars ⟨1⟩, none⟩ (createdWithin.run 11)
      ⟨2⟩ [] :=
    ⟨⟨"p", .create (some "j"), by rfl, rfl⟩, by decide +kernel, .of_run (n := 1) (by decide +kernel),
      by rfl⟩
  exact hall _ _ _ _ ⟨.main, .nothing, some ⟨2⟩⟩ none selfName [] .instanceVars hm hruns (by rfl)
    (by rfl) (by rfl)

end TieredState.Machine
