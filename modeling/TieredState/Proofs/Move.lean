import TieredState.Proofs.Turn

/-!
# What a step does

A step of a machine does one thing to the world, apart from calm changes. `Move m v v'` lists what it
can be, where `v` and `v'` are what the theory sees of the machine before and after, its `View`. The
theorems about runs are proved by cases on `Move`, and nothing past this module looks into the
calls of a script.

* `act_move` — every orderly step makes a move.
* `Binds`, `Releases`, `Destroys`, `ShutsDown`, `Marks`, `EndsThread` — whose step it is that does
  something to a binding.
-/

namespace TieredState

/-- What the theory sees of a machine: the world, and what is on the hands of what is under way. -/
structure View where
  world : World
  charges : List (Token × InstanceId)
  uses : List (ThreadId × StorageId)
  closing : List Token

/-- What the theory sees of a scene. -/
def Scene.view (sc : Scene) : View where
  world := sc.session.world
  charges := sc.stack.flatMap Frame.charges
  uses := sc.stack.flatMap Frame.uses
  closing := sc.stack.flatMap Frame.closing

/-- The view of a scene is that of its world and of the hands of its frames. -/
theorem Scene.view_of (s : Session) (stack : List Frame) : (Scene.of s stack).view =
    ⟨s.world, stack.flatMap Frame.charges, stack.flatMap Frame.uses,
      stack.flatMap Frame.closing⟩ := by
  unfold Scene.view Scene.of
  dsimp only
  rw [Frame.flatMap_shell Frame.charges_shell, Frame.flatMap_shell Frame.uses_shell,
    Frame.flatMap_shell Frame.closing_shell]
  rfl

/-! ## Plain calls -/

namespace Session

open World

/-- The calls on a process that are plain change the world only, and all but two of them calmly. -/
theorem plainProcessCall_cases (s : Session) (ctx : Context) (tok : Token) (q : Process)
    (c : ProcessCall) :
    Calm s.world (s.plainProcessCall ctx tok q c).2.world ∨
    (∃ i as? id, c = .bind i as? ∧ s.instanceToKeep ctx (some tok) i = .ok id ∧
      (s.plainProcessCall ctx tok q c).2.world = (s.world.bind ctx.thread tok id).2) ∨
    ∃ id?, c = .release ∧
      s.world.release ctx.thread tok = .ok (id?, (s.plainProcessCall ctx tok q c).2.world) := by
  cases c with
  | bind i as? =>
    dsimp only [plainProcessCall]
    split
    · exact .inl (.refl _)
    · next id hid =>
      refine .inr (.inl ⟨i, as?, id, rfl, hid, ?_⟩)
      split
      · rw [world_keepHandle]
        rfl
      · rfl
  | release =>
    dsimp only [plainProcessCall, change]
    split
    · next id? w hr => exact .inr (.inr ⟨id?, rfl, hr⟩)
    · exact .inl (.refl _)
  | _ => exact .inl (calm_plainProcessCall (fun _ _ h => by cases h) fun h => by cases h)

/-- A call other than one on a process is calm, starts a process or ends a thread, unless it changes a
registry. -/
theorem plainCall_cases (s : Session) (ctx : Context) {c : Call} (hedit : c.editsRegistry = false) :
    Calm s.world (s.plainCall ctx c).2.world ∨
    (∃ config, Calm (s.world.start config).2 (s.plainCall ctx c).2.world) ∨
    ∃ name, c = .endThread name ∧
      (s.plainCall ctx c).2.world = s.world.withoutThread (.worker name) := by
  -- of the calls that are not calm, first those that start a process
  cases hstart : c.startsProcess with
  | true =>
    cases c with
    | start p config? =>
      simp only [plainCall, startProcess]
      split
      · exact .inl (.refl _)
      · next config _ => exact .inr (.inl ⟨config, .refl _⟩)
    | foreign c =>
      cases c with
      | start =>
        simp only [plainCall, foreignCall, foreignStart]
        split
        · exact .inl (.refl _)
        · split
          · exact .inl (.refl _)
          · next config _ _ => exact .inr (.inl ⟨config, calm_install _ _⟩)
      | _ => cases hstart
    | _ => cases hstart
  | false =>
    cases hend : c.endsThread with
    | true =>
      cases c with
      | endThread name => exact .inr (.inr ⟨name, rfl, rfl⟩)
      | _ => cases hend
    | false => exact .inl (calm_plainCall hstart hend hedit)

end Session

namespace Machine

open World Session

def view (m : Machine) : View := ⟨m.session.world, m.charges, m.uses, m.closing⟩

/-- The view is told by the scene. -/
theorem view_scene (m : Machine) : m.scene.view = m.view := Scene.view_of m.session m.stack

/-! ## Whose step it is -/

section Whose

variable (m : Machine) (t : ThreadId) (tok : Token) (id : InstanceId)

/-- The thread is about to bind itself to an instance under a process. -/
def Binds : Prop :=
  ∃ ctx p i as?, m.nextCall? = some (ctx, .process p (.bind i as?)) ∧ ctx.thread = t ∧
    m.session.process p = .ok tok ∧ m.session.instanceToKeep ctx (some tok) i = .ok id

/-- The thread is about to release its binding under a process. -/
def Releases : Prop :=
  ∃ ctx p, m.nextCall? = some (ctx, .process p .release) ∧ ctx.thread = t ∧
    m.session.process p = .ok tok

/-- The thread is about to mark an instance dead, as part of an operation of its own. -/
def Marks : Prop :=
  ∃ d, m.finishing? = some d ∧ (∀ as?, d.task ≠ .create as?) ∧ d.thread = t ∧ d.process = tok ∧ d.target = id

/-- The thread is about to complete its own destruction of an instance. -/
def Destroys : Prop :=
  ∃ d, m.finishing? = some d ∧ d.task = .destroy ∧ d.thread = t ∧ d.process = tok ∧ d.target = id

/-- The thread is about to begin, to go on with or to complete its own shutdown of a process. -/
def ShutsDown : Prop :=
  (∃ ctx p, m.nextCall? = some (ctx, .process p .shutdown) ∧ ctx.thread = t ∧
    m.session.process p = .ok tok) ∨
  ∃ d rest count, m.finishing? = some d ∧ d.task = .shutdown rest count ∧ d.thread = t ∧ d.process = tok

/-- The thread, a worker, is about to be ended. -/
def EndsThread : Prop := ∃ ctx name, m.nextCall? = some (ctx, .endThread name) ∧ t = .worker name

end Whose

variable {m m₀ : Machine} {t : ThreadId} {tok : Token} {id : InstanceId}

/-- Whoever marks an instance dead destroys it or shuts its process down. -/
theorem Marks.destroys_or_shutsDown (h : m.Marks t tok id) : m.Destroys t tok id ∨ m.ShutsDown t tok := by
  obtain ⟨d, hfin, hcreate, ht, htok, hid⟩ := h
  cases htask : d.task with
  | create as? => exact absurd htask (hcreate as?)
  | destroy => exact .inl ⟨d, hfin, htask, ht, htok, hid⟩
  | shutdown rest count => exact .inr (.inr ⟨d, rest, count, hfin, htask, ht, htok⟩)

/-! ## Moves -/

/-- The uses of storages end one after the other, with calm changes in between. -/
inductive EndUses : World → List (ThreadId × StorageId) → World → Prop
  | done {w w' : World} (h : Calm w w') : EndUses w [] w'
  | calm {w w₁ w' : World} {uses : List (ThreadId × StorageId)} (h : Calm w w₁)
    (hrest : EndUses w₁ uses w') : EndUses w uses w'
  | storage {w w' : World} {t : ThreadId} {s : StorageId} {uses : List (ThreadId × StorageId)}
    (hrest : EndUses (w.endBorrow t s) uses w') : EndUses w ((t, s) :: uses) w'

/-- What a step of the machine `m` can do to what the theory sees, apart from calm changes before
it. -/
inductive Move (m : Machine) (v : View) : View → Prop
  | calm {w : World} (h : Calm v.world w) : Move m v { v with world := w }
  | start (c : Config) {w : World} (h : Calm (v.world.start c).2 w) : Move m v { v with world := w }
  | endThread {t : ThreadId} (h : m.EndsThread t) :
    Move m v { v with world := v.world.withoutThread t }
  | bind {t : ThreadId} {tok : Token} {id : InstanceId} (h : m.Binds t tok id) :
    Move m v { v with world := (v.world.bind t tok id).2 }
  | release {t : ThreadId} {tok : Token} (h : m.Releases t tok) {id? : Option InstanceId} {w : World}
    (hr : v.world.release t tok = .ok (id?, w)) : Move m v { v with world := w }
  | enroll (t : ThreadId) (tok : Token) (parent? : Option InstanceId) :
    Move m v { v with world := (v.world.enroll t tok parent?).2 }
  | withdraw {t : ThreadId} {tok : Token} {id : InstanceId} {w : World}
    (hw : v.world.withdraw t tok id = .ok w) :
    Move m v { v with world := w, charges := (tok, id) :: v.charges }
  /-- A shutdown begins with the teardown of an instance. -/
  | beginShutdown {t : ThreadId} {tok : Token} {ids : List InstanceId} {w : World}
    (hw : v.world.beginShutdown t tok = .ok (ids, w)) :
    Move m v { v with
      world := w
      charges := ids.map (tok, ·) ++ v.charges
      closing := tok :: v.closing }
  /-- A shutdown of a process without instances is done at once. -/
  | shutdown {t : ThreadId} {tok : Token} (h : m.ShutsDown t tok) {w : World}
    (hw : v.world.beginShutdown t tok = .ok ([], w)) : Move m v { v with world := w.releaseKey t tok }
  | tearDown {t : ThreadId} {tok : Token} {id : InstanceId} (h : m.Marks t tok id)
    {charges : List (Token × InstanceId)} (hcharges : v.charges = (tok, id) :: charges) :
    Move m v { v with world := v.world.tearDown t tok id, charges }
  /-- A shutdown ends with the teardown of its last instance. -/
  | endShutdown {t : ThreadId} {tok : Token} {id : InstanceId} (h : m.Marks t tok id)
    (hdown : m.ShutsDown t tok) {charges : List (Token × InstanceId)}
    (hcharges : v.charges = (tok, id) :: charges) {closing : List Token}
    (hclosing : v.closing = tok :: closing) :
    Move m v { v with world := (v.world.tearDown t tok id).releaseKey t tok, charges, closing }
  | borrow {t : ThreadId} {h : Handle} {w : World} (hw : v.world.borrow t h = .ok w) :
    Move m v { v with world := w, uses := (t, h.storage) :: v.uses }
  | endUses {ended uses : List (ThreadId × StorageId)} (huses : v.uses = ended ++ uses) {w : World}
    (h : EndUses v.world ended w) : Move m v { v with world := w, uses }

/-! ## What is not seen -/

/-- An outcome that is handed on is not seen in the view. -/
@[simp] theorem view_deliver (m : Machine) (o : Outcome) : (m.deliver o).view = m.view := by
  obtain ⟨session, stack, script, reports⟩ := m
  unfold deliver
  cases stack with
  | nil => rfl
  | cons f below => cases f <;> rfl

/-- An operation that ends leaves the stack as it is. -/
theorem view_done (m : Machine) (job : Bool) (o : Outcome) (s : Session) :
    (m.proceed job (.done o s)).view = { m.view with world := s.world } := by
  rw [proceed, view_deliver]
  rfl

/-! ## Calls -/

/-- Touching a thread leaves open what can be kept of what names stand for. -/
theorem instanceToKeep_opening (m : Machine) (ctx : Context) (tok : Token) (i : Name) :
    (m.opening ctx).instanceToKeep ctx (some tok) i =
      m.session.instanceToKeep ctx (some tok) i := by
  unfold instanceToKeep findInstance readRegistry mayTake live opening touch
  rw [world_withWorld, thread_setThread_self]
  rfl

/-- A call to a process without an operation is a move. -/
theorem move_plainProcessCall {ctx : Context} {p : Name} {c : ProcessCall} {v : View}
    (hcall : m.nextCall? = some (ctx, .process p c)) (hproc : m.session.process p = .ok tok)
    (hv : v.world = (m.opening ctx).world) (q : Process) :
    Move m v { v with world := ((m.opening ctx).plainProcessCall ctx tok q c).2.world } := by
  obtain ⟨w, charges, uses, closing⟩ := v
  dsimp only at hv
  subst hv
  rcases plainProcessCall_cases (m.opening ctx) ctx tok q c with
    hcalm | ⟨i, as?, id, rfl, hid, hworld⟩ | ⟨id?, rfl, hr⟩
  · exact .calm hcalm
  · rw [instanceToKeep_opening] at hid
    rw [hworld]
    exact .bind ⟨ctx, p, i, as?, hcall, rfl, hproc, hid⟩
  · exact .release ⟨ctx, p, hcall, rfl, hproc⟩ hr

/-- A call to anything else is a move, unless it edits a registry. -/
theorem move_plainCall {ctx : Context} {c : Call} {v : View} (hcall : m.nextCall? = some (ctx, c))
    (hedit : c.editsRegistry = false) (hv : v.world = (m.opening ctx).world) :
    Move m v { v with world := ((m.opening ctx).plainCall ctx c).2.world } := by
  obtain ⟨w, charges, uses, closing⟩ := v
  dsimp only at hv
  subst hv
  rcases plainCall_cases (m.opening ctx) ctx hedit with hcalm | ⟨config, hcalm⟩ | ⟨name, rfl, hworld⟩
  · exact .calm hcalm
  · exact .start config hcalm
  · rw [hworld]
    exact .endThread ⟨ctx, name, hcall, rfl⟩

/-- A call that is done at once is a move, unless it edits a registry. -/
theorem move_served {ctx : Context} {c : Call} {o : Outcome} {s : Session} {v : View}
    (hcall : m.nextCall? = some (ctx, c)) (hedit : c.editsRegistry = false)
    (hv : v.world = (m.opening ctx).world) (h : (m.opening ctx).Served ctx c o s) :
    Move m v { v with world := s.world } := by
  cases h with
  | plain _ => exact move_plainCall hcall hedit hv
  | process hproc _ _ => exact move_plainProcessCall hcall hproc hv _
  | refused f => exact .calm (hv ▸ .refl _)
  | @drawn _ _ tok parent? _ _ henroll =>
    have henrolled : (v.world.enroll ctx.thread tok parent?).2 = (m.opening ctx).world.draw := by
      rw [hv, henroll]
    have hmove := Move.enroll (m := m) (v := v) ctx.thread tok parent?
    rw [henrolled] at hmove
    exact hmove
  | shutdown hproc hbegin =>
    rw [← hv] at hbegin
    exact .shutdown (.inl ⟨ctx, _, hcall, rfl, hproc⟩) hbegin

/-- What was created is registered before its hooks run, and what is to be destroyed is not
registered any more. -/
theorem move_begins {t : ThreadId} {s s' : Session} {d : Dispatch} {v : View}
    (hv : v.world = s.world) (h : s.Begins t tok d s') :
    Move m v { v with
      world := s'.world
      charges := d.charges ++ v.charges
      closing := d.closing ++ v.closing } := by
  cases h with
  | @create parent? id w as? henroll =>
    have hmove := Move.enroll (m := m) (v := v) t tok parent?
    rw [hv, henroll] at hmove
    exact hmove
  | destroy hwithdraw =>
    rw [← hv] at hwithdraw
    exact .withdraw hwithdraw
  | shutdown hbegin =>
    rw [← hv] at hbegin
    exact .beginShutdown hbegin

/-! ## Closures -/

/-- A closure has taken a lock, or the storage of a binding, or nothing. -/
theorem move_entered {ctx : Context} {steps : List Step} {b : Body} {s s' : Session} {v : View}
    (hv : v.world = s.world) (h : s.Entered ctx steps b s') (job : Bool) :
    Move m v { v with
      world := s'.world
      uses := Frame.uses (.body { b with job }) ++ v.uses } := by
  cases h with
  | lock focus tokens ids htake => exact .calm (hv ▸ calm_take htake)
  | storage tokens hborrow =>
    rw [← hv] at hborrow
    exact .borrow hborrow
  | attempt => exact .calm (hv ▸ .refl _)

/-- What a closure took is given back when its body ends. -/
theorem endUses_undo (s : Session) (b : Body) {uses : List (ThreadId × StorageId)} {w : World}
    (h : EndUses (s.undo b).world uses w) : EndUses s.world (Frame.uses (.body b) ++ uses) w := by
  unfold undo at h
  unfold Frame.uses
  dsimp only
  cases howner : b.owner with
  | attempt =>
    rw [howner] at h
    exact h
  | lock l =>
    rw [howner] at h
    exact .calm (calm_giveBack _ _ _) h
  | storage storage =>
    rw [howner] at h
    exact .storage h
  | hook tag target =>
    rw [howner] at h
    exact h

/-- Unwinding ends the uses of the closures that it passes. -/
theorem endUses_unwind (s : Session) (stack : List Frame) :
    ∃ ended, stack.flatMap Frame.uses = ended ++ (unwind s stack).2.flatMap Frame.uses ∧
      EndUses s.world ended (unwind s stack).1.world := by
  induction stack generalizing s with
  | nil => exact ⟨[], rfl, .done (.refl _)⟩
  | cons f below ih =>
    cases f with
    | dispatch d job =>
      unfold unwind
      split
      · exact ⟨[], rfl, .done (.refl _)⟩
      · exact ih s
    | body b =>
      unfold unwind
      dsimp only
      split
      · -- unwinding stops below this body
        refine ⟨Frame.uses (.body b), rfl, ?_⟩
        have hundo := endUses_undo s b (.done (.refl _))
        rw [List.append_nil] at hundo
        exact hundo
      · obtain ⟨ended, huses, hend⟩ := ih (s.undo b)
        refine ⟨Frame.uses (.body b) ++ ended, ?_, endUses_undo s b hend⟩
        rw [List.append_assoc, ← huses]
        rfl

/-- Unwinding that comes to no hook passes bodies only, so what only dispatches have is left. -/
theorem flatMap_unwind {α : Type} {f : Frame → List α} (hf : ∀ b, f (.body b) = []) (s : Session)
    (stack : List Frame) (h : unwindsHook stack = false) :
    (unwind s stack).2.flatMap f = stack.flatMap f := by
  induction stack generalizing s with
  | nil => rfl
  | cons frame below ih =>
    cases frame with
    | dispatch d job => cases h
    | body b =>
      unfold unwindsHook at h
      unfold unwind
      dsimp only
      rw [List.flatMap_cons, hf, List.nil_append]
      cases hstop : b.job || decide (b.owner = .attempt) with
      | true => rfl
      | false =>
        rw [hstop] at h
        exact ih (s.undo b) (by simpa using h)

/-! ## Dispatches -/

/-- What is torn down is on the hands of its operation. -/
theorem charges_beginTearDown (s : Session) (t : ThreadId) (tok : Token) (id : InstanceId)
    (task : Task) (failure? : Option AccessError) :
    (s.beginTearDown t tok id task failure?).charges =
      Dispatch.charges { thread := t, process := tok, target := id, pending := [], task } := by
  unfold beginTearDown
  split <;> rfl

/-- The operation that tears down tells which processes are closing. -/
theorem closing_beginTearDown (s : Session) (t : ThreadId) (tok : Token) (id : InstanceId)
    (task : Task) (failure? : Option AccessError) :
    (s.beginTearDown t tok id task failure?).closing =
      Dispatch.closing { thread := t, process := tok, target := id, pending := [], task } := by
  unfold beginTearDown
  split <;> rfl

/-- What is seen of a machine with a dispatch on top. -/
theorem view_of_dispatch {d : Dispatch} {job : Bool} {below : List Frame}
    (hstack : m.stack = .dispatch d job :: below) : m.view =
      ⟨m.session.world, d.charges ++ below.flatMap Frame.charges, below.flatMap Frame.uses,
        d.closing ++ below.flatMap Frame.closing⟩ := by
  unfold view charges uses closing
  rw [hstack]
  rfl

theorem move_finishes {d : Dispatch} {job : Bool} {below : List Frame} {o : Outcome} {s : Session}
    (hstack : m.stack = .dispatch d job :: below) (hfin : m.finishing? = some d)
    (hdone : m.session.finish d = .done o s) : Move m m.view (Scene.of s below).view := by
  rw [view_of_dispatch hstack, Scene.view_of]
  have hmarks : (∀ as?, d.task ≠ .create as?) → m.Marks d.thread d.process d.target :=
    fun hcreate => ⟨d, hfin, hcreate, rfl, rfl, rfl⟩
  unfold Dispatch.charges Dispatch.condemned Dispatch.closing
  cases finishes_of_finish hdone with
  | create htask =>
    rw [htask, world_keepInstance]
    exact .calm (.refl _)
  | destroy htask =>
    rw [htask]
    exact .tearDown (hmarks fun as? => htask ▸ nofun) rfl
  | shutdown htask =>
    have hdown : m.ShutsDown d.thread d.process := .inr ⟨d, [], _, hfin, htask, rfl, rfl⟩
    rw [htask]
    exact .endShutdown (hmarks fun as? => htask ▸ nofun) hdown rfl rfl

/-- The next instance of a shutdown takes the place of the one that is torn down. -/
theorem move_goesOn {d d' : Dispatch} {job : Bool} {below : List Frame} {s : Session}
    (hstack : m.stack = .dispatch d job :: below) (hfin : m.finishing? = some d)
    (hrunning : m.session.finish d = .running d' s) :
    Move m m.view (Scene.of s (.dispatch d' job :: below)).view := by
  rw [view_of_dispatch hstack, Scene.view_of, List.flatMap_cons, List.flatMap_cons,
    List.flatMap_cons]
  cases finishes_of_finish hrunning with
  | next htask =>
    have hmarks : m.Marks d.thread d.process d.target :=
      ⟨d, hfin, fun as? => htask ▸ nofun, rfl, rfl, rfl⟩
    unfold Frame.charges Frame.closing Frame.uses
    dsimp only
    rw [charges_beginTearDown, closing_beginTearDown]
    unfold Dispatch.charges Dispatch.condemned Dispatch.closing
    rw [htask]
    exact .tearDown hmarks rfl

/-! ## Steps -/

/-- Unwinding that comes to no hook ends the uses of the closures that it passes. -/
theorem move_fails {s : Session} (h : unwindsHook m.stack = false) :
    Move m { m.view with world := s.world }
      (Scene.of (unwind s m.stack).1 (unwind s m.stack).2).view := by
  obtain ⟨ended, huses, hend⟩ := endUses_unwind s m.stack
  rw [Scene.view_of, flatMap_unwind (f := Frame.charges) (fun _ => rfl) s m.stack h,
    flatMap_unwind (f := Frame.closing) (fun _ => rfl) s m.stack h]
  exact .endUses huses hend

/-- The end of a body gives back what its closure took. -/
theorem move_closes {b : Body} {below : List Frame} (hstack : m.stack = .body b :: below) :
    Move m m.view (Scene.of (m.session.undo b) below).view := by
  have hundo := endUses_undo m.session b (.done (.refl _))
  rw [List.append_nil] at hundo
  have huses : m.uses = Frame.uses (.body b) ++ below.flatMap Frame.uses := by
    unfold uses
    rw [hstack]
    rfl
  have hmove := Move.endUses (m := m) (v := m.view) huses hundo
  have hview : (Scene.of (m.session.undo b) below).view =
      { m.view with
        world := (m.session.undo b).world
        uses := below.flatMap Frame.uses } := by
    rw [Scene.view_of]
    unfold view charges closing
    rw [hstack]
    rfl
  rw [hview]
  exact hmove

/-- Every step makes a move, after at most a calm change, or changes a registry past every check, or
unwinds a hook. -/
theorem turn_move {sc : Scene} (h : Turn m sc) :
    (∃ w, Calm m.session.world w ∧ Move m { m.view with world := w } sc.view) ∨
    (∃ ctx c o s, m.nextCall? = some (ctx, c) ∧ c.editsRegistry = true ∧
      (m.opening ctx).Served ctx c o s ∧ sc = .of s m.stack) ∨
    ∃ ctx, m.next? = some (ctx, .call none .fail) ∧ unwindsHook m.stack = true ∧
      sc = .of (unwind (m.opening ctx) m.stack).1 (unwind (m.opening ctx) m.stack).2 := by
  have hopening : ∀ ctx, Calm m.session.world (m.opening ctx).world :=
    fun ctx => calm_setThread_thread _ _
  cases h with
  | idle =>
    rw [view_scene]
    exact .inl ⟨_, .refl _, .calm (.refl _)⟩
  | @served ctx c o s hcall hdone hserved =>
    cases hedit : c.editsRegistry with
    | true => exact .inr (.inl ⟨ctx, c, o, s, hcall, hedit, hserved, rfl⟩)
    | false =>
      refine .inl ⟨_, hopening ctx, ?_⟩
      rw [Scene.view_of]
      exact move_served hcall hedit rfl hserved
  | @begins ctx p c tok d s job hcall hproc _ hbegins =>
    refine .inl ⟨_, hopening ctx, ?_⟩
    rw [Scene.view_of]
    exact move_begins rfl hbegins
  | @refused ctx step hnext =>
    refine .inl ⟨_, hopening ctx, ?_⟩
    rw [Scene.view_of]
    exact .calm (.refl _)
  | @opens ctx on? o steps b s job hnext hent =>
    refine .inl ⟨_, hopening ctx, ?_⟩
    rw [Scene.view_of]
    exact move_entered rfl (entered_of_enter hent) job
  | @registers ctx on? r steps hnext =>
    refine .inl ⟨_, hopening ctx, ?_⟩
    rw [Scene.view_of]
    exact .calm (calm_registerHook _ _ _ _)
  | @fails ctx hnext =>
    cases hunwinds : unwindsHook m.stack with
    | true => exact .inr (.inr ⟨ctx, hnext, rfl, rfl⟩)
    | false => exact .inl ⟨_, hopening ctx, move_fails hunwinds⟩
  | closes hstack => exact .inl ⟨_, .refl _, move_closes hstack⟩
  | skips hstack _ _ =>
    refine .inl ⟨_, .refl _, ?_⟩
    rw [Scene.view_of, view_of_dispatch hstack]
    exact .calm (.refl _)
  | @calls d job below id rest c hstack _ _ =>
    refine .inl ⟨_, .refl _, ?_⟩
    rw [Scene.view_of, view_of_dispatch hstack]
    unfold Callback.bodies
    split <;> exact .calm (.refl _)
  | finishes hstack hfin hdone => exact .inl ⟨_, .refl _, move_finishes hstack hfin hdone⟩
  | goesOn hstack hfin hrunning => exact .inl ⟨_, .refl _, move_goesOn hstack hfin hrunning⟩

/-- An orderly step edits no registry. -/
theorem editsRegistry_of_orderly (h : m.orderly = true) {ctx : Context} {c : Call}
    (hcall : m.nextCall? = some (ctx, c)) : c.editsRegistry = false := by
  unfold nextCall? at hcall
  unfold orderly at h
  split at hcall
  · next ctx' on? c' hnext =>
    obtain ⟨rfl, rfl⟩ := Prod.mk.inj (Option.some.inj hcall)
    rw [hnext] at h
    simpa using (Bool.and_eq_true_iff.1 h).1
  · cases hcall

/-- An orderly step unwinds no hook. -/
theorem unwindsHook_of_orderly (h : m.orderly = true) {ctx : Context}
    (hnext : m.next? = some (ctx, .call none .fail)) : unwindsHook m.stack = false := by
  unfold orderly at h
  rw [hnext] at h
  simpa using (Bool.and_eq_true_iff.1 h).2

/-- Every orderly step makes a move, after at most a calm change. -/
theorem act_move (h : m.orderly = true) :
    ∃ w, Calm m.session.world w ∧ Move m { m.view with world := w } m.act.view := by
  rw [← view_scene m.act]
  rcases turn_move (act_turn m) with hmove | ⟨ctx, c, o, s, hcall, hedit, -⟩ | ⟨ctx, hnext, hunwinds, -⟩
  · exact hmove
  · rw [editsRegistry_of_orderly h hcall] at hedit
    cases hedit
  · rw [unwindsHook_of_orderly h hnext] at hunwinds
    cases hunwinds

end Machine

end TieredState
