import TieredState.Proofs.Shutdown

/-!
# What a process answers when it is shut down

A process has some thirty operations, and each of them checks for itself whether the process is live:
some ask first of all, some behind the lock of the registry, and one after two other checks. When a
shutdown has returned, in a run of steps of any kind, all of them are refused and change nothing:
`refused_after_shutdown`. The reason is the same for all but one. Spawning asks first whose the parent
is and whether it is alive, and tells this instead: `spawn_tells_otherwise`.
-/

namespace TieredState

namespace ProcessCall

/-- The call is one that a process may refuse. -/
def canFail : ProcessCall → Bool
  | report | phase | token | key | policySize | install | bindingState | doUndump | earlyTaint
  | forceDoUndump _ => false
  | _ => true

/-- The call is for a child of another instance. -/
def spawns : ProcessCall → Bool
  | spawn _ _ => true
  | _ => false

end ProcessCall

namespace World

variable {w w' : World} {t : ThreadId} {tok : Token}

/-! ## Processes that are shut down -/

/-- The process was started, and is shut down if it is there still. -/
structure Down (w : World) (tok : Token) : Prop where
  drawn : tok.number < w.nextToken
  phase : ∀ p, w.processes.get? tok = some p → p.phase = .shutDown

namespace Down

/-- A process that is down is not live. -/
theorem live (h : w.Down tok) : w.live tok = .error .shutDown := by
  unfold World.live
  cases hp : w.processes.get? tok with
  | none => rfl
  | some p => exact if_pos (h.phase p hp)

/-- An operation that asks for the live process first is refused. -/
theorem refuses (h : w.Down tok) {α : Type} (f : Process → Except AccessError α) :
    (w.live tok >>= f) = .error .shutDown := by
  rw [h.live]
  rfl

/-- So is a flag of the startup, if the lock of the registry is free. -/
theorem setStartupFlag (h : w.Down tok) (hmay : w.mayTake t .registry = .ok ()) (field : String)
    (f : Process → Process) : w.setStartupFlag t tok field f = .error .shutDown := by
  cases hp : w.processes.get? tok with
  | none =>
    unfold World.setStartupFlag
    rw [hmay, hp]
    rfl
  | some p =>
    have hphase := h.phase p hp
    have hpast : ¬(w.mayTake t .registry = .ok () ∧ p.phase = .startup) := by
      rw [hphase]
      exact fun hboth => nomatch hboth.2
    rw [setStartupFlag_refused hp hpast]
    unfold writeError
    rw [hmay, hphase]
    rfl

/-- A process that is down is not shut down again. -/
theorem beginShutdown (h : w.Down tok) (hmay : w.mayTake t .registry = .ok ()) :
    w.beginShutdown t tok = .error .shutDown := by
  unfold World.beginShutdown
  rw [hmay]
  exact h.refuses _

/-- A process that is down registers nothing. -/
theorem enroll (h : w.Down tok) (t : ThreadId) (parent? : Option InstanceId) :
    w.enroll t tok parent? = (.error .shutDown, w) := by
  unfold World.enroll
  rw [h.live]

/-- A process that is down binds no thread. -/
theorem bind (h : w.Down tok) (t : ThreadId) (id : InstanceId) :
    w.bind t tok id = (.error .shutDown, w) := by
  unfold World.bind
  rw [h.live]

/-- A process that is shut down stays so, whatever is done in a run. -/
theorem ages (h : w.Down tok) (ha : Ages w w') : w'.Down tok := by
  refine ⟨Nat.lt_of_lt_of_le h.drawn ha.nextToken, fun p' hp' => ?_⟩
  rcases ha.processes tok p' hp' with ⟨p, hp, hdown, -, -⟩ | ⟨hnew, -, -⟩
  · exact hdown (h.phase p hp)
  · exact absurd h.drawn (Nat.not_lt.2 hnew)

end Down

/-! ## The operations -/

/-- Every operation on the process is refused for the thread: what it gives is an error and, where it
gives a world too, the world as it was. -/
structure Refusing (w : World) (t : ThreadId) (tok : Token) : Prop where
  create : w.enroll t tok none = (.error .shutDown, w)
  destroy : ∀ id, w.withdraw t tok id = .error .shutDown
  shutdown : w.beginShutdown t tok = .error .shutDown
  instances : w.instanceIds t tok = .error .shutDown
  count : w.instanceCount t tok = .error .shutDown
  find : ∀ id, w.findInstance t tok id = .error .shutDown
  initial : w.initialInstance t tok = .error .shutDown
  bind : ∀ id, w.bind t tok id = (.error .shutDown, w)
  release : w.release t tok = .error .shutDown
  current : w.current t tok = .error .shutDown
  currentThread : w.currentThread t tok = .error .shutDown
  enterCurrent : w.enterCurrent t tok = .error .shutDown
  enterThread : w.enterThread t tok = .error .shutDown
  addHook : ∀ e c, w.addHook t tok e c = .error .shutDown
  removeHook : ∀ id, w.removeHook t tok id = .error .shutDown
  setDoUndump : ∀ b, w.setDoUndump t tok b = .error .shutDown
  setEarlyTaint : ∀ b, w.setEarlyTaint t tok b = .error .shutDown
  shPath : w.shPath t tok = .error .shutDown
  setShPath : ∀ s, w.setShPath t tok s = .error .shutDown
  programName : w.programName t tok = .error .shutDown
  setProgramName : ∀ s, w.setProgramName t tok s = .error .shutDown
  changeOpRefs : ∀ f, w.changeOpRefs t tok f = .error .shutDown
  changeAllocStats : ∀ f, w.changeAllocStats t tok f = .error .shutDown
  allocStats : w.allocStats t tok = .error .shutDown
  /-- To spawn from a parent that is the process's own and alive is refused like all the rest. -/
  spawn : ∀ parent i, w.instances.get? parent = some i → i.owner = tok → i.alive = true →
    w.enrollChild t tok parent = (.error .shutDown, w)
  spawnDead : ∀ parent i, w.instances.get? parent = some i → i.owner = tok → i.alive = false →
    w.enrollChild t tok parent = (.error (.instanceDestroyed parent), w)
  spawnForeign : ∀ parent, (∀ i, w.instances.get? parent = some i → i.owner ≠ tok) →
    w.enrollChild t tok parent = (.error (.foreignInstance parent), w)

/-- What an instance may be spawned from is asked of the parent before the process is asked. -/
theorem enrollChild_eq (w : World) (t : ThreadId) {parent : InstanceId} {i : Instance}
    (hi : w.instances.get? parent = some i) (howner : i.owner = tok) :
    w.enrollChild t tok parent =
      if i.alive then w.enroll t tok (some parent) else (.error (.instanceDestroyed parent), w) := by
  unfold enrollChild checkOwner checkAlive isLive
  rw [hi, Option.any_some, Option.any_some, decide_eq_true howner]
  cases i.alive <;> rfl

/-- A process spawns nothing from an instance of another one. -/
theorem enrollChild_foreign (w : World) (t : ThreadId) {parent : InstanceId}
    (h : ∀ i, w.instances.get? parent = some i → i.owner ≠ tok) :
    w.enrollChild t tok parent = (.error (.foreignInstance parent), w) := by
  have hnot : (w.instances.get? parent).any (·.owner = tok) = false := by
    rw [Option.any_eq_false]
    exact fun i hi => by simpa using h i hi
  unfold enrollChild checkOwner
  rw [hnot]
  rfl

/-- A process that is shut down refuses all that is asked of it by a thread that holds no lock which
ranks as high as the registry's. -/
theorem Down.refusing (h : w.Down tok)
    (hfree : ∀ l ∈ (w.thread t).held, l.rank < Lock.registry.rank) : w.Refusing t tok where
  create := h.enroll t none
  destroy _ := h.refuses _
  shutdown := h.beginShutdown (mayTake_ok.2 hfree)
  instances := h.refuses _
  count := h.refuses _
  find _ := h.refuses _
  initial := h.refuses _
  bind := h.bind t
  release := h.refuses _
  current := h.refuses _
  currentThread := h.refuses _
  -- both openings ask for the binding first, and that asks whether the process is live
  enterCurrent := by
    unfold World.enterCurrent World.current
    rw [h.refuses]
    rfl
  enterThread := by
    unfold World.enterThread World.currentThread
    rw [h.refuses]
    rfl
  addHook _ _ := h.refuses _
  removeHook _ := h.refuses _
  setDoUndump _ := h.setStartupFlag (mayTake_ok.2 hfree) _ _
  setEarlyTaint _ := h.setStartupFlag (mayTake_ok.2 hfree) _ _
  shPath := h.refuses _
  setShPath _ := h.refuses _
  programName := h.refuses _
  setProgramName _ := h.refuses _
  changeOpRefs _ := h.refuses _
  changeAllocStats _ := h.refuses _
  allocStats := h.refuses _
  spawn parent i hi howner halive := by
    rw [enrollChild_eq w t hi howner, if_pos halive]
    exact h.enroll t (some parent)
  spawnDead parent i hi howner hdead := by
    rw [enrollChild_eq w t hi howner, hdead]
    rfl
  spawnForeign _ := enrollChild_foreign w t

end World

namespace Session

open World

variable {s : Session} {ctx : Context} {p : Name} {tok : Token}

/-! ## Scripts -/

/-- A name that is not given to an instance is refused as such. -/
theorem error_of_instanceNamed {i : Name} {f : Fault} (h : s.instanceNamed ctx i = .error f) :
    f = .noSuchName i := by
  unfold instanceNamed at h
  split at h
  · cases h
  · split at h
    · cases h
    · exact (Except.error.inj h).symm

/-- A name that stands for no instance to keep is refused as such. -/
theorem error_of_instanceToKeep {tok? : Option Token} {i : Name} {f : Fault}
    (h : s.instanceToKeep ctx tok? i = .error f) : f = .noSuchName i := by
  unfold instanceToKeep at h
  split at h
  · split at h
    · cases h
    · exact (Except.error.inj h).symm
  · split at h
    · cases h
    · exact (Except.error.inj h).symm

/-- A name that is not given to a hook is refused as such. -/
theorem error_of_hookNamed {n : Name} {f : Fault} (h : s.hookNamed n = .error f) :
    f = .noSuchName n := by
  unfold hookNamed at h
  split at h
  · cases h
  · exact (Except.error.inj h).symm

/-- Whatever a script asks of the process that goes by the name is refused, and leaves the session as
it is. A name in the script may stand for nothing. -/
structure Refusing (s : Session) (ctx : Context) (p : Name) : Prop where
  call : ∀ c, c.canFail = true → ∃ f, s.call ctx (.process p c) = .done (.error f) s ∧
    (c.spawns = false → f = .access .shutDown ∨ ∃ n, f = .noSuchName n)
  enterCurrent : ∀ steps, s.enter ctx (.ofCurrent p) steps = .error (.access .shutDown)
  enterThread : ∀ steps, s.enter ctx (.ofThread p) steps = .error (.access .shutDown)
  registerHook : ∀ r steps, r.process? = some p →
    s.registerHook ctx r steps = (.error (.access .shutDown), s)

/-- A creation that is refused is so at once. -/
theorem beginCreate_refused {as? : Option Name} {e : AccessError} (t : ThreadId) :
    s.beginCreate t tok as? (.error e, s.world) = .done (.error (.access e)) s := rfl

/-- A process that refuses everything spawns nothing, whatever the parent is. -/
theorem enrollChild_refused (h : s.world.Refusing ctx.thread tok) (parent : InstanceId) :
    ∃ e, s.world.enrollChild ctx.thread tok parent = (.error e, s.world) := by
  cases hi : s.world.instances.get? parent with
  | none => exact ⟨_, h.spawnForeign parent fun i hsome => by rw [hi] at hsome; cases hsome⟩
  | some i =>
    by_cases howner : i.owner = tok
    · cases halive : i.alive with
      | true => exact ⟨_, h.spawn parent i hi howner halive⟩
      | false => exact ⟨_, h.spawnDead parent i hi howner halive⟩
    · refine ⟨_, h.spawnForeign parent fun j hj => ?_⟩
      rw [hi] at hj
      exact Option.some.inj hj ▸ howner

/-- The calls that run hooks are refused before any hook is listed. -/
theorem lifecycleCall_refused (h : s.world.Refusing ctx.thread tok) {c : ProcessCall}
    (hc : c.isLifecycle = true) : ∃ f, s.processCall ctx tok c = .done (.error f) s ∧
      (c.spawns = false → f = .access .shutDown ∨ ∃ n, f = .noSuchName n) := by
  cases c with
  | create as? =>
    refine ⟨.access .shutDown, ?_, fun _ => .inl rfl⟩
    simp only [processCall]
    rw [h.create, beginCreate_refused]
  | spawn parent as? =>
    simp only [processCall]
    split
    · next f _ => exact ⟨f, rfl, fun hspawns => absurd hspawns Bool.noConfusion⟩
    · next id _ =>
      obtain ⟨e, he⟩ := enrollChild_refused h id
      rw [he, beginCreate_refused]
      exact ⟨_, rfl, fun hspawns => absurd hspawns Bool.noConfusion⟩
  | destroy i =>
    simp only [processCall]
    split
    · next f hname => exact ⟨f, rfl, fun _ => .inr ⟨i, error_of_instanceNamed hname⟩⟩
    · next id _ =>
      refine ⟨.access .shutDown, ?_, fun _ => .inl rfl⟩
      unfold beginDestroy
      rw [h.destroy]
  | shutdown =>
    refine ⟨.access .shutDown, ?_, fun _ => .inl rfl⟩
    simp only [processCall]
    unfold beginShutdown
    rw [h.shutdown]
  | _ => cases hc

/-- So are the others, and the session stays as it is. -/
theorem plainProcessCall_refused (h : s.world.Refusing ctx.thread tok) (q : Process)
    {c : ProcessCall} (hc : c.isLifecycle = false) (hfail : c.canFail = true) :
    ∃ f, s.plainProcessCall ctx tok q c = (.error f, s) ∧
      (f = .access .shutDown ∨ ∃ n, f = .noSuchName n) := by
  -- the three ways in which a call is answered, for a question that is refused
  have hanswer : ∀ {α : Type} {g : α → Answer} {r : Except AccessError α}, r = .error .shutDown →
      answer g r = .error (.access .shutDown) := by
    rintro α g r rfl
    rfl
  have hchange : ∀ {α : Type} {g : α → Answer} {r : Except AccessError (α × World)},
      r = .error .shutDown → s.change g r = (.error (.access .shutDown), s) := by
    rintro α g r rfl
    rfl
  have heffect : ∀ {r : Except AccessError World}, r = .error .shutDown →
      s.effect r = (.error (.access .shutDown), s) := by
    rintro r rfl
    rfl
  cases c with
  | create | spawn | destroy | shutdown => cases hc
  | report | phase | token | key | policySize | install | bindingState | doUndump | earlyTaint
  | forceDoUndump => cases hfail
  | find i as? =>
    simp only [plainProcessCall]
    split
    · next f hname => exact ⟨f, rfl, .inr ⟨i, error_of_instanceNamed hname⟩⟩
    · next id _ =>
      rw [h.find]
      exact ⟨_, rfl, .inl rfl⟩
  | bind i as? =>
    simp only [plainProcessCall]
    split
    · next f hname => exact ⟨f, rfl, .inr ⟨i, error_of_instanceToKeep hname⟩⟩
    · next id _ =>
      rw [h.bind]
      exact ⟨_, rfl, .inl rfl⟩
  | removeHook n =>
    simp only [plainProcessCall]
    split
    · next f hname => exact ⟨f, rfl, .inr ⟨n, error_of_hookNamed hname⟩⟩
    · next id _ => exact ⟨_, hchange (h.removeHook id), .inl rfl⟩
  | current as? =>
    simp only [plainProcessCall]
    rw [h.current]
    exact ⟨_, rfl, .inl rfl⟩
  | currentThread as? =>
    simp only [plainProcessCall]
    rw [h.currentThread]
    exact ⟨_, rfl, .inl rfl⟩
  | initial as? =>
    simp only [plainProcessCall]
    rw [h.initial]
    exact ⟨_, rfl, .inl rfl⟩
  | instances => exact ⟨_, by simp only [plainProcessCall, hanswer h.instances], .inl rfl⟩
  | count => exact ⟨_, by simp only [plainProcessCall, hanswer h.count], .inl rfl⟩
  | shPath => exact ⟨_, by simp only [plainProcessCall, hanswer h.shPath], .inl rfl⟩
  | programName => exact ⟨_, by simp only [plainProcessCall, hanswer h.programName], .inl rfl⟩
  | allocStats => exact ⟨_, by simp only [plainProcessCall, hanswer h.allocStats], .inl rfl⟩
  | release => exact ⟨_, hchange h.release, .inl rfl⟩
  | setShPath text => exact ⟨_, hchange (h.setShPath text), .inl rfl⟩
  | setProgramName text => exact ⟨_, hchange (h.setProgramName text), .inl rfl⟩
  | increment op => exact ⟨_, hchange (h.changeOpRefs _), .inl rfl⟩
  | decrement op => exact ⟨_, hchange (h.changeOpRefs _), .inl rfl⟩
  | setDoUndump b => exact ⟨_, heffect (h.setDoUndump b), .inl rfl⟩
  | setEarlyTaint b => exact ⟨_, heffect (h.setEarlyTaint b), .inl rfl⟩
  | recordAlloc n => exact ⟨_, heffect (h.changeAllocStats _), .inl rfl⟩
  | recordFree n => exact ⟨_, heffect (h.changeAllocStats _), .inl rfl⟩

/-- What the process refuses is refused to scripts. -/
theorem refusing_of_world (h : s.world.Refusing ctx.thread tok) (hproc : s.process p = .ok tok)
    {q : Process} (hq : s.world.processes.get? tok = some q) : s.Refusing ctx p where
  -- the lookup of the name succeeds, so the call comes to the process
  call c hfail := by
    cases hc : c.isLifecycle with
    | true =>
      obtain ⟨f, hcall, hwhy⟩ := lifecycleCall_refused h hc
      refine ⟨f, ?_, hwhy⟩
      simp only [call]
      rw [hproc]
      exact hcall
    | false =>
      obtain ⟨f, hcall, hwhy⟩ := plainProcessCall_refused h q hc hfail
      refine ⟨f, ?_, fun _ => hwhy⟩
      rw [call_of_plain hproc hq hc, hcall]
  enterCurrent steps := by
    unfold Session.enter
    dsimp only
    rw [hproc]
    exact opened_error h.enterCurrent
  enterThread steps := by
    unfold Session.enter
    dsimp only
    rw [hproc]
    exact opened_error h.enterThread
  registerHook r steps hr := by
    unfold Session.registerHook
    dsimp only
    rw [hr]
    dsimp only
    rw [hproc]
    dsimp only
    have hadd : (s.addCallback { tag := r.tag, limit := r.limit, body := steps }).2.world.addHook
        ctx.thread tok r.event (s.addCallback { tag := r.tag, limit := r.limit, body := steps }).1 =
          .error .shutDown := h.addHook _ _
    rw [hadd]

end Session

namespace Machine

open World Session

variable {allowed later : Machine → Bool} {m m' : Machine} {t : ThreadId} {tok : Token}

/-! ## Runs -/

/-- What a shutdown that goes on after hooks shuts down is so already. -/
theorem down_of_finishing {d : Dispatch} {rest : List InstanceId} {count : Nat} (hd : m.Dated)
    (hfin : m.finishing? = some d) (htask : d.task = .shutdown rest count) :
    m.session.world.Down d.process := by
  obtain ⟨job, below, hstack, -⟩ := act_of_finishing? hfin
  have hclosing : d.process ∈ m.closing := by
    refine List.mem_flatMap.2 ⟨.dispatch d job, hstack ▸ List.mem_cons_self, ?_⟩
    unfold Frame.closing Dispatch.closing
    dsimp only
    rw [htask]
    exact List.mem_singleton_self _
  obtain ⟨hdrawn, hphase⟩ := hd.closing _ hclosing
  exact ⟨hdrawn, hphase⟩

/-- What is taken from its registry to be shut down was started. -/
theorem down_of_beginShutdown {w w' : World} {closing : List Token} {ids : List InstanceId}
    (hd : w.Dated closing) (hw : w.beginShutdown t tok = .ok (ids, w')) : w'.Down tok := by
  have hphase := phase_of_beginShutdown hw
  obtain ⟨p, hp, -, rfl⟩ := beginShutdown_ok hw
  exact ⟨(hd.processes _ p (live_ok.1 hp).1).1, hphase⟩

/-- When a shutdown has returned, the process is shut down. -/
theorem down_of_shutdown {a : Answer} (hd : m.Dated) (hdown : m.ShutsDown t tok)
    (hreturned : m.returned? = some (.ok a)) : m.step.session.world.Down tok := by
  rcases hdown with ⟨ctx, name, hcall, -, hproc⟩ | ⟨d, rest, count, hfin, htask, -, rfl⟩
  · obtain ⟨job, hscene⟩ := act_of_nextCall? hcall nofun
    rw [returned?_of_shutdown hcall] at hreturned
    rw [call_shutdown hproc] at hreturned hscene
    have hopening : (m.opening ctx).world.Dated m.closing :=
      hd.ages (.calm (calm_setThread_thread _ _))
    cases hw : (m.opening ctx).world.beginShutdown ctx.thread tok with
    | error e =>
      unfold Session.beginShutdown at hreturned
      rw [hw] at hreturned
      cases hreturned
    | ok r =>
      obtain ⟨ids, w⟩ := r
      cases ids with
      | nil =>
        rw [beginShutdown_nil hw] at hscene
        have hreleased : (w.releaseKey ctx.thread tok).Down tok :=
          (down_of_beginShutdown hopening hw).ages (.releaseKey (phase_of_beginShutdown hw) _)
        have hact : m.act.session.world.Down tok := by
          rw [(act_of_scene hscene).2]
          exact hreleased
        exact hact.ages (Ages.sweep m.act.session m.actor m.act.heldTokens m.act.heldIds)
      | cons id rest =>
        -- hooks are to be run before it returns
        rw [beginShutdown_cons hw] at hreturned
        cases hreturned
  · exact (down_of_finishing hd hfin htask).ages (ages_step hd).1

/-- A process that is shut down stays so in every run. -/
theorem down_of_run (hd : m.Dated) (h : m.session.world.Down tok) (hrun : Run allowed m m') :
    m'.session.world.Down tok := by
  induction hrun with
  | refl => exact h
  | step hrun _ ih => exact ih.ages (ages_step (dated_of_run hd hrun)).1
  | @redirect m' _ steps ih =>
    rw [world_redirect]
    exact ih

/-- Once a shutdown of a process has returned, in a run of steps of any kind, every operation on it is
refused for each thread that holds no lock which ranks as high as the registry's, and so is all that
scripts ask of it. -/
theorem refused_after_shutdown {a : Answer} (hm : Reachable allowed m) (hdown : m.ShutsDown t tok)
    (hreturned : m.returned? = some (.ok a)) (hrun : Run later m.step m') :
    ∀ t', (∀ l ∈ (m'.session.world.thread t').held, l.rank < Lock.registry.rank) →
      m'.session.world.Refusing t' tok ∧
      ∀ ctx name p, ctx.thread = t' → m'.session.process name = .ok tok →
        m'.session.world.processes.get? tok = some p → (m'.opening ctx).Refusing ctx name := by
  intro t' hfree
  have hd := dated_of_reachable hm
  have hlater := down_of_run (ages_step hd).2 (down_of_shutdown hd hdown hreturned) hrun
  refine ⟨hlater.refusing hfree, ?_⟩
  rintro ctx name p rfl hproc hp
  have hopening : (m'.opening ctx).world.Down tok :=
    hlater.ages (.calm (calm_setThread_thread _ _))
  refine refusing_of_world (hopening.refusing ?_) hproc hp
  rw [thread_opening m' ctx]
  exact hfree

/-- A program that shuts down a process with an instance, and spawns from the instance then. -/
def spawnedTooLate : Machine :=
  start default default 0 [
    .call none (.start "p" none),
    .call none (.process "p" (.create (some "i"))),
    .call none (.process "p" .shutdown),
    .call none (.process "p" (.spawn "i" none))]

/-- Workers can no more create instances than the thread can that has shut down. -/
theorem worker_refused :
    ((spawnedTooLate.run 4).step.session.world.enroll (.worker "a") ⟨1⟩ none).1 =
      .error .shutDown := by
  have hm : Reachable orderly (spawnedTooLate.run 4) := .of_run (by decide +kernel)
  have hdown : (spawnedTooLate.run 4).ShutsDown .main ⟨1⟩ :=
    .inr ⟨⟨.main, ⟨1⟩, ⟨1⟩, [], .shutdown [] 1, none⟩, [], 1, by decide +kernel, rfl, rfl, rfl⟩
  have hreturned : (spawnedTooLate.run 4).returned? = some (.ok (.number 1)) := by rfl
  have hrun : Run orderly (spawnedTooLate.run 4).step (spawnedTooLate.run 4).step := .refl
  have hrefusing := (refused_after_shutdown hm hdown hreturned hrun (.worker "a") nofun).1
  rw [hrefusing.create]

/-- It is not so that every operation tells that the process is shut down: spawning tells that the
parent is dead. -/
theorem spawn_tells_otherwise :
    ¬ ∀ (m : Machine) (t : ThreadId) (tok : Token) (a : Answer) (t' : ThreadId) (parent : InstanceId),
      Reachable orderly m → m.ShutsDown t tok → m.returned? = some (.ok a) →
      (m.step.session.world.thread t').held = [] →
      (m.step.session.world.enrollChild t' tok parent).1 = .error .shutDown := by
  intro hall
  have hm : Reachable orderly (spawnedTooLate.run 4) := .of_run (by decide +kernel)
  have hdown : (spawnedTooLate.run 4).ShutsDown .main ⟨1⟩ :=
    .inr ⟨⟨.main, ⟨1⟩, ⟨1⟩, [], .shutdown [] 1, none⟩, [], 1, by decide +kernel, rfl, rfl, rfl⟩
  have hreturned : (spawnedTooLate.run 4).returned? = some (.ok (.number 1)) := by rfl
  have hspawn := hall _ _ _ _ .main ⟨1⟩ hm hdown hreturned (by decide +kernel)
  have htells : ((spawnedTooLate.run 4).step.session.world.enrollChild .main ⟨1⟩ ⟨1⟩).1 =
      .error (.instanceDestroyed ⟨1⟩) := by rfl
  rw [htells] at hspawn
  cases hspawn

end Machine

end TieredState
