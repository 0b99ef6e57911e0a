import TieredState.Proofs.Invariant

/-!
# No use after teardown

There are many ways to the variables of an instance, and to those of a binding to it: the instance
itself, the thread's current binding, handles to this and to earlier bindings. Each of them checks
for itself that the instance is live, and so do the operations that would make new bindings and new
children. So once an instance is marked dead, `World.Refuses` holds of it, and since nothing that is
dead lives again, it holds from then on: `refuses_of_marked`.
-/

namespace TieredState

namespace World

variable {w : World} {t : ThreadId} {tok : Token} {id : InstanceId}

/-- Every way to the variables of an instance, and of bindings to it, is closed. -/
structure Refuses (w : World) (id : InstanceId) : Prop where
  enterInstance : ∀ t, w.enterInstance t id = .error (.instanceDestroyed id)
  enterCurrent : ∀ t tok b, (w.thread t).binding? tok = some b → b.target = id →
    ∃ e, w.enterCurrent t tok = .error e
  enterThread : ∀ t tok b, (w.thread t).binding? tok = some b → b.target = id →
    ∃ e, w.enterThread t tok = .error e
  borrow : ∀ t h, h.target = id → ∃ e, w.borrow t h = .error e
  bind : ∀ t tok, ∃ e, w.bind t tok id = (.error e, w)
  enrollChild : ∀ t tok, ∃ e, w.enrollChild t tok id = (.error e, w)

/-! ## The checks -/

/-- The check of a dead instance tells that it was destroyed. -/
theorem checkAlive_dead (h : w.isLive id = false) :
    w.checkAlive id = .error (.instanceDestroyed id) := by
  unfold checkAlive
  rw [if_neg (Bool.eq_false_iff.1 h)]

/-- A thread that is bound to a dead instance is not told of it as the present one. -/
theorem current_dead {b : Binding} (hb : (w.thread t).binding? tok = some b)
    (h : w.isLive b.target = false) : ∃ e, w.current t tok = .error e := by
  unfold current boundInstance
  cases w.live tok with
  | error e => exact ⟨e, rfl⟩
  | ok p =>
    rw [hb]
    exact ⟨_, handleInstance_dead h⟩

/-- A thread that is bound to a dead instance gets no handle. -/
theorem currentThread_dead {b : Binding} (hb : (w.thread t).binding? tok = some b)
    (h : w.isLive b.target = false) : ∃ e, w.currentThread t tok = .error e := by
  unfold currentThread boundHandle
  cases w.live tok with
  | error e => exact ⟨e, rfl⟩
  | ok p =>
    rw [hb]
    dsimp only
    rw [handleInstance_dead h]
    exact ⟨_, rfl⟩

/-- No closure is opened on a binding to a dead instance. -/
theorem borrow_dead {h : Handle} (hdead : w.isLive h.target = false) :
    ∃ e, w.borrow t h = .error e := by
  unfold World.borrow
  dsimp only
  split
  · exact ⟨_, rfl⟩
  · rw [handleInstance_dead hdead]
    exact ⟨_, rfl⟩

/-- What is dead or gone is refused on every way. -/
theorem refuses_of_dead (h : w.isLive id = false) : w.Refuses id where
  enterInstance t := by
    unfold World.enterInstance
    rw [checkAlive_dead h]
    rfl
  enterCurrent t tok b hb htarget := by
    obtain ⟨e, he⟩ := current_dead hb (htarget ▸ h)
    unfold World.enterCurrent
    rw [he]
    exact ⟨e, rfl⟩
  enterThread t tok b hb htarget := by
    obtain ⟨e, he⟩ := currentThread_dead hb (htarget ▸ h)
    unfold World.enterThread
    rw [he]
    exact ⟨e, rfl⟩
  borrow t handle htarget := borrow_dead (htarget ▸ h)
  -- a bind asks for the process and the owner before it asks whether the instance is alive
  bind t tok := by
    unfold World.bind
    split
    · exact ⟨_, rfl⟩
    · split
      · exact ⟨_, rfl⟩
      · rw [checkAlive_dead h]
        exact ⟨_, rfl⟩
  enrollChild t tok := by
    unfold World.enrollChild
    split
    · exact ⟨_, rfl⟩
    · rw [checkAlive_dead h]
      exact ⟨_, rfl⟩

end World

namespace Session

open World

/-- The instance on whose variables, or on the variables of a binding to which, an opening is to
start its closure. -/
def wanted? (s : Session) (ctx : Context) : Opening → Option InstanceId
  | .ofInstance i => (s.instanceNamed ctx i).toOption
  | .ofCurrent p | .ofThread p =>
    (s.process p).toOption.bind fun tok => ((s.world.thread ctx.thread).binding? tok).map (·.target)
  | .ofHandle h => (s.handleNamed ctx.thread h).toOption.map (·.target)
  | _ => none

/-- The ways are closed for every operation, and so for every step of a script: a closure that is
wanted on the instance is not started. -/
structure Refuses (s : Session) (id : InstanceId) : Prop where
  world : s.world.Refuses id
  enter : ∀ ctx o steps, s.wanted? ctx o = some id →
    ∃ e, (s.touch ctx.thread).enter ctx o steps = .error (.access e)

/-- A session refuses a dead instance in whatever way it is asked for. -/
theorem refuses_of_dead {s : Session} {id : InstanceId} (h : s.world.isLive id = false) :
    s.Refuses id where
  world := World.refuses_of_dead h
  enter ctx o steps hwanted := by
    -- the thread is made known first, which takes nothing from what it keeps
    have htouch : (s.touch ctx.thread).world.Refuses id := World.refuses_of_dead h
    have hthread : (s.touch ctx.thread).world.thread ctx.thread = s.world.thread ctx.thread := by
      unfold touch
      rw [world_withWorld, thread_setThread_self]
    unfold wanted? at hwanted
    unfold Session.enter
    cases o with
    | ofInstance i =>
      have hname : (s.touch ctx.thread).instanceNamed ctx i = .ok id := toOption_eq_some.1 hwanted
      dsimp only
      rw [hname]
      refine ⟨.instanceDestroyed id, opened_error ?_⟩
      rw [htouch.enterInstance]
      rfl
    | ofCurrent p =>
      obtain ⟨tok, hp, hwanted⟩ := Option.bind_eq_some_iff.1 hwanted
      obtain ⟨b, hb, htarget⟩ := Option.map_eq_some_iff.1 hwanted
      have hname : (s.touch ctx.thread).process p = .ok tok := toOption_eq_some.1 hp
      obtain ⟨e, he⟩ := htouch.enterCurrent ctx.thread tok b (hthread ▸ hb) htarget
      dsimp only
      rw [hname]
      exact ⟨e, opened_error he⟩
    | ofThread p =>
      obtain ⟨tok, hp, hwanted⟩ := Option.bind_eq_some_iff.1 hwanted
      obtain ⟨b, hb, htarget⟩ := Option.map_eq_some_iff.1 hwanted
      have hname : (s.touch ctx.thread).process p = .ok tok := toOption_eq_some.1 hp
      obtain ⟨e, he⟩ := htouch.enterThread ctx.thread tok b (hthread ▸ hb) htarget
      dsimp only
      rw [hname]
      exact ⟨e, opened_error he⟩
    | ofHandle n =>
      obtain ⟨handle, hn, htarget⟩ := Option.map_eq_some_iff.1 hwanted
      have hname : (s.touch ctx.thread).handleNamed ctx.thread n = .ok handle := toOption_eq_some.1 hn
      obtain ⟨e, he⟩ := htouch.borrow ctx.thread handle htarget
      dsimp only
      rw [hname]
      refine ⟨e, opened_error ?_⟩
      rw [he]
      rfl
    | _ => cases hwanted

end Session

namespace Machine

open World

variable {m m' : Machine} {t : ThreadId} {tok : Token} {id : InstanceId}

/-- An operation that tears an instance down marks it, whatever it does besides. -/
theorem grows_finish {d : Dispatch} (hcreate : ∀ as?, d.task ≠ .create as?) (m : Machine)
    (job : Bool) : Grows (m.session.world.marked d.target)
      (m.proceed job (m.session.finish d)).session.world := by
  have htear := Grows.tearDown m.session.world d.thread d.process d.target
  have hsession : ∀ p : Progress, (m.proceed job p).session.world = p.session.world := by
    intro p
    cases p with
    | done o s => exact congrArg View.world (view_done m job o s)
    | running d s => rfl
  rw [hsession]
  generalize hp : m.session.finish d = p
  cases Session.finishes_of_finish hp with
  | create htask => exact absurd htask (hcreate _)
  | destroy htask => exact htear
  | shutdown htask => exact htear.trans (.releaseKey _ _ _)
  | next htask => exact htear

/-- The step that marks an instance dead finds it alive and leaves it dead. -/
theorem dead_of_marks (h : m.Sound) (hmarks : m.Marks t tok id) :
    m.session.world.isLive id = true ∧ m.step.session.world.isLive id = false := by
  obtain ⟨d, hfin, hcreate, -, -, rfl⟩ := hmarks
  obtain ⟨job, below, hstack, hact⟩ := act_of_finishing? hfin
  have hmem : d.target ∈ m.condemned := by
    unfold condemned
    rw [hstack, List.flatMap_cons]
    refine List.mem_append_left _ ?_
    unfold Frame.condemned Dispatch.condemned
    dsimp only
    cases htask : d.task with
    | create as? => exact absurd htask (hcreate as?)
    | destroy => exact List.mem_cons_self
    | shutdown rest count => exact List.mem_cons_self
  have hlive := h.registry.outLive _ hmem
  have hdrawn := h.registry.drawn_of_live hlive
  refine ⟨hlive, ?_⟩
  -- from the mark to the end of the step the world only grows
  have hgrows : Grows (m.session.world.marked d.target) m.step.session.world := by
    have hsound := (sound_act h (orderly_of_finishing? hfin)).1
    have hfinish := grows_finish hcreate { m with stack := below } job
    rw [← hact] at hfinish
    exact hfinish.trans (sound_sweep hsound m.actor).2.grows
  refine hgrows.not_live hdrawn ?_
  rw [isLive_marked]
  simp

/-- Once a destruction or a shutdown has marked an instance dead, no operation of any thread gets at
its variables or at those of a binding to it, binds a thread to it, or spawns a child of it. -/
theorem refuses_of_marked (hm : Reachable orderly m) (hmarks : m.Marks t tok id)
    (hrun : Run orderly m.step m') : m'.session.Refuses id := by
  have hsound := sound_of_reachable hm
  have hok : m.orderly = true := by
    obtain ⟨d, hfin, -⟩ := hmarks
    exact orderly_of_finishing? hfin
  obtain ⟨hlive, hdead⟩ := dead_of_marks hsound hmarks
  obtain ⟨hsound', hgrows⟩ := sound_step hsound hok
  have hdrawn := Nat.lt_of_lt_of_le (hsound.registry.drawn_of_live hlive) hgrows.nextInstance
  exact Session.refuses_of_dead ((sound_of_run hsound' hrun).2.not_live hdrawn hdead)

/-- The main thread is bound to the instance still, and has a handle. -/
theorem refuses_after_destroy : ((destroyedByWorker.run 5).step.run 2).session.Refuses ⟨1⟩ := by
  have hmarks : (destroyedByWorker.run 5).Marks (.worker "a") ⟨1⟩ ⟨1⟩ := by
    refine ⟨⟨.worker "a", ⟨1⟩, ⟨1⟩, [], .destroy, none⟩, ?_, fun _ => nofun, rfl, rfl, rfl⟩
    decide +kernel
  exact refuses_of_marked (.of_run (by decide +kernel)) hmarks (.of_run (by decide +kernel))

end Machine

end TieredState
