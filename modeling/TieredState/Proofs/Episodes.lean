import TieredState.Proofs.Sweep
import TieredState.Proofs.Uses

/-!
# Handles and the episodes of a binding

An episode of a binding lasts from the bind that draws its storage to the release, the rebinding or
the shutdown that takes the binding from its slot. Handles that the thread obtains meanwhile outlive
the episode, and the thread may be bound to the same instance again. But storages are never drawn
twice, so an old handle and a new binding do not meet.

* `Past.advances` — what a handle knows of its thread stays so as the thread goes on.
* `handles_and_episodes` — a handle opens a closure during its episode only, and after it fails.
-/

namespace TieredState

namespace Thread

variable {th th' : Thread} {tok : Token} {h : Handle}

/-- The handle was obtained some time ago: its storage was drawn, and no binding but the one that the
handle was obtained from has ever had that storage. -/
structure Past (th : Thread) (tok : Token) (h : Handle) : Prop where
  drawn : h.storage.number < th.nextStorage
  own : ∀ tok' b, th.binding? tok' = some b → b.storage = h.storage → tok' = tok ∧ b = h

/-- A handle to the binding in force. -/
theorem past_of_binding (hs : th.Sound) (hb : th.binding? tok = some h) : th.Past tok h where
  drawn := hs.drawn h.storage (hs.stored tok h hb)
  own tok' b hb' hstorage := by
    obtain rfl := hs.apart tok' tok b h hb' hb hstorage
    rw [hb] at hb'
    exact ⟨rfl, (Option.some.inj hb').symm⟩

/-- What was an episode of the past is so when the thread has gone on. -/
theorem Past.advances (h₀ : th.Past tok h) (hadv : Advances th th') : th'.Past tok h where
  drawn := Nat.lt_of_lt_of_le h₀.drawn hadv.nextStorage
  own tok' b hb hstorage := by
    rcases hadv.bindings tok' b hb with hold | hnew
    · exact h₀.own tok' b hold hstorage
    · -- a storage that was drawn since is another one
      have hdrawn := h₀.drawn
      rw [← hstorage] at hdrawn
      omega

/-- A binding that has ended does not come back. -/
theorem Past.ended (h₀ : th.Past tok h) (hadv : Advances th th') (hb : th.binding? tok ≠ some h) :
    th'.binding? tok ≠ some h := by
  intro hb'
  rcases hadv.bindings tok h hb' with hold | hnew
  · exact hb hold
  · have hdrawn := h₀.drawn
    omega

end Thread

namespace World

open Thread

variable {w : World} {t : ThreadId} {tok : Token} {h : Handle} {uses : List (ThreadId × StorageId)}

/-! ## Taking the storage of a handle -/

/-- A handle gives access during its episode, while its instance is live and no closure uses its
storage. -/
theorem borrow_iff (hs : w.ThreadsSound) (he : w.Exact uses) (hpast : (w.thread t).Past tok h) :
    (∃ w', w.borrow t h = .ok w') ↔
      (w.thread t).binding? tok = some h ∧ w.isLive h.target = true ∧ (t, h.storage) ∉ uses := by
  constructor
  · rintro ⟨w', hok⟩
    have hspec := borrow_ok hok
    -- what is free belongs to a binding, and there is only one that it can belong to
    obtain ⟨tok', b, hb, hstorage⟩ := owns_iff.1 (he.tidy t h.storage hspec.free)
    obtain ⟨rfl, rfl⟩ := hpast.own tok' b hb hstorage
    refine ⟨hb, hspec.live, fun hmem => ?_⟩
    have hused := (he.used t _).1 hmem
    rw [hspec.free] at hused
    cases hused
  · rintro ⟨hb, hlive, hnot⟩
    cases hborrow : w.borrow t h with
    | ok w' => exact ⟨w', rfl⟩
    | error e =>
      exfalso
      rcases borrow_error hborrow with ⟨-, hnone⟩ | ⟨-, hdead⟩ | ⟨-, hused⟩
      · have hstored := (hs t).stored tok h hb
        rw [hnone] at hstored
        cases hstored
      · rw [hlive] at hdead
        cases hdead
      · exact hnot ((he.used t h.storage).2 hused)

/-- After the episode a handle is refused. When no closure of the episode runs any more, its storage
is gone. -/
theorem borrow_ended (hs : w.ThreadsSound) (he : w.Exact uses) (hpast : (w.thread t).Past tok h)
    (hb : (w.thread t).binding? tok ≠ some h) :
    ∃ e, w.borrow t h = .error e ∧ ((t, h.storage) ∉ uses → e = .noActiveInstance) := by
  cases hborrow : w.borrow t h with
  | ok w' => exact absurd ((borrow_iff hs he hpast).1 ⟨w', hborrow⟩).1 hb
  | error e =>
    refine ⟨e, rfl, fun hnot => ?_⟩
    -- a storage that is not in use is kept by some binding, and the episode's has ended
    have hgone : (w.thread t).usage h.storage = none := by
      cases husage : (w.thread t).usage h.storage with
      | none => rfl
      | some used =>
        exfalso
        cases used with
        | true => exact hnot ((he.used t h.storage).2 husage)
        | false =>
          obtain ⟨tok', b, hb', hstorage⟩ := owns_iff.1 (he.tidy t h.storage husage)
          obtain ⟨rfl, rfl⟩ := hpast.own tok' b hb' hstorage
          exact hb hb'
    have hget : (w.thread t).storages.get? h.storage = none := Option.map_eq_none_iff.1 hgone
    unfold borrow at hborrow
    dsimp only at hborrow
    rw [hget] at hborrow
    exact (Except.error.inj hborrow).symm

end World

namespace Machine

open World Thread Session

variable {m m' m'' : Machine} {t : ThreadId} {tok : Token} {id : InstanceId} {h h' : Handle}
  {ctx : Context} {n : Name}

/-! ## Handles and bindings -/

/-- The thread is bound under the process by the binding that the handle is to: the handle's episode
lasts. -/
def Lasts (m : Machine) (t : ThreadId) (tok : Token) (h : Handle) : Prop :=
  (m.session.world.thread t).binding? tok = some h

/-- A thread is about to bind itself to an instance under a process, and to obtain the handle by it. -/
inductive BindsTo (m : Machine) (tok : Token) (id : InstanceId) (h : Handle) : ThreadId → Prop
  | intro {ctx : Context} {p i : Name} {as? : Option Name}
    (hcall : m.nextCall? = some (ctx, .process p (.bind i as?)))
    (hproc : m.session.process p = .ok tok)
    (hkeep : (m.opening ctx).instanceToKeep ctx (some tok) i = .ok id)
    (hbind : ((m.opening ctx).world.bind ctx.thread tok id).1 = .ok h) : BindsTo m tok id h ctx.thread

/-- A thread is about to obtain a handle under a process. -/
inductive Obtains (m : Machine) (tok : Token) (h : Handle) : ThreadId → Prop
  /-- The thread binds itself. -/
  | bind {t : ThreadId} {id : InstanceId} (hbinds : m.BindsTo tok id h t) : Obtains m tok h t
  /-- The thread asks for a handle to its binding. -/
  | currentThread {ctx : Context} {p : Name} {as? : Option Name}
    (hcall : m.nextCall? = some (ctx, .process p (.currentThread as?)))
    (hproc : m.session.process p = .ok tok)
    (hcurrent : (m.opening ctx).world.currentThread ctx.thread tok = .ok h) : Obtains m tok h ctx.thread

/-- A handle is that of the present binding under a live process. -/
theorem currentThread_ok {w : World} (hok : w.currentThread t tok = .ok h) :
    (∃ p, w.live tok = .ok p) ∧ (w.thread t).binding? tok = some h := by
  obtain ⟨p, hp, hok⟩ := bind_eq_ok.1 hok
  refine ⟨⟨p, hp⟩, ?_⟩
  unfold boundHandle at hok
  split at hok
  · cases hok
  · next b hb =>
    obtain ⟨_, -, hok⟩ := bind_eq_ok.1 hok
    rw [hb, Except.ok.inj hok]

/-- A call of a thread that is not ended by it is no end of a thread at all. -/
theorem settled_of_nextCall? {c : Call} (hcall : m.nextCall? = some (ctx, c))
    (hc : ∀ name, c ≠ .endThread name) : ∀ t, m.lasting t = true := by
  have hends : ∀ t, m.ends t = false := by
    intro t
    unfold ends
    rw [hcall]
    cases c with
    | endThread name => exact absurd rfl (hc name)
    | _ => rfl
  intro t
  unfold lasting settled
  rw [Bool.and_eq_true, List.all_eq_true, hends]
  exact ⟨fun f _ => by rw [hends]; rfl, rfl⟩

/-- A thread lasts through the step by which it gets a handle. -/
theorem lasting_of_obtains (hobtains : m.Obtains tok h t) : m.lasting t = true := by
  cases hobtains with
  | bind hbinds =>
    obtain ⟨hcall, -, -, -⟩ := hbinds
    exact settled_of_nextCall? hcall nofun _
  | currentThread hcall _ _ => exact settled_of_nextCall? hcall nofun _

/-- A bind that succeeds, in full. -/
theorem step_of_bindsTo (hkept : m.Kept) (hbinds : m.BindsTo tok id h t) :
    ∃ w : World, w.instances = m.session.world.instances ∧ w.processes = m.session.world.processes ∧
      (∀ t, w.thread t = m.session.world.thread t) ∧ (∃ p, w.live tok = .ok p) ∧
      w.isLive id = true ∧ (w.bindThread t tok id).1 = .ok h ∧
      m.step.session.world = (w.bindThread t tok id).2 := by
  obtain @⟨ctx, p, i, as?, hcall, hproc, hkeep, hbind⟩ := hbinds
  obtain ⟨⟨q, hq⟩, hlive, hbindThread⟩ := bind_ok hbind
  have hscene := act_of_plain hcall hproc (live_ok.1 hq).1 rfl
  have hsession : ((m.opening ctx).plainProcessCall ctx tok q (.bind i as?)).2 =
      ((m.opening ctx).withWorld ((m.opening ctx).world.bindThread ctx.thread tok id).2).keepHandle
        ctx.thread as? h := by
    simp only [plainProcessCall]
    rw [hkeep]
    dsimp only
    rw [hbind, hbindThread]
  rw [hsession] at hscene
  -- nothing is lost in this step, so the sweep has nothing to do
  have hact : m.act.Kept := by
    obtain ⟨th', -, hw⟩ := bindThread_cases (m.opening ctx).world ctx.thread tok id
    refine (kept_of_scene hscene).2 ?_
    rw [hw]
    cases as? <;> exact ⟨hkept.processes, hkept.instances⟩
  have hworld := congrArg (fun sc => sc.session.world) hscene
  change m.act.session.world = (Session.keepHandle _ _ _ _).world at hworld
  rw [world_keepHandle] at hworld
  rw [hbindThread] at hbind
  refine ⟨(m.opening ctx).world, rfl, rfl, thread_opening m ctx, ⟨q, hq⟩, hlive,
    hbind, ?_⟩
  rw [step_eq_act hact, hworld]
  rfl

/-- Whoever obtains a handle is bound by the binding that it is to. -/
theorem lasts_of_obtains (hkept : m.Kept) (hobtains : m.Obtains tok h t) : m.step.Lasts t tok h := by
  cases hobtains with
  | bind hbinds =>
    obtain ⟨w, -, -, -, -, -, hok, hworld⟩ := step_of_bindsTo hkept hbinds
    unfold Lasts
    rw [hworld]
    -- of binding it is known what comes of the binding when it succeeds
    rcases (bindThread_spec w t tok _).own with ⟨b, hb, -, hbinding⟩ | ⟨e, herror, -⟩
    · obtain rfl := Except.ok.inj (hb.symm.trans hok)
      exact hbinding
    · have hcontra := herror.symm.trans hok
      cases hcontra
  | @currentThread ctx p as? hcall hproc hcurrent =>
    obtain ⟨⟨q, hq⟩, hbinding⟩ := currentThread_ok hcurrent
    have hscene := act_of_plain hcall hproc (live_ok.1 hq).1 rfl
    have hsession : ((m.opening ctx).plainProcessCall ctx tok q (.currentThread as?)).2 =
        (m.opening ctx).keepHandle ctx.thread as? h := by
      simp only [plainProcessCall]
      rw [hcurrent]
    rw [hsession] at hscene
    have hact : m.act.Kept := by
      refine (kept_of_scene hscene).2 ?_
      cases as? <;> exact ⟨hkept.processes, hkept.instances⟩
    have hworld := congrArg (fun sc => sc.session.world) hscene
    change m.act.session.world = (Session.keepHandle _ _ _ _).world at hworld
    rw [world_keepHandle] at hworld
    unfold Lasts
    rw [step_eq_act hact, hworld]
    exact hbinding

/-! ## Closures through a handle -/

/-- A closure through a handle opens if the storage behind the handle can be taken. -/
theorem enter_ofHandle (hname : m.session.handleNamed ctx.thread n = .ok h) (steps : List Step) :
    (m.opening ctx).enter ctx (.ofHandle n) steps =
      match (m.opening ctx).world.borrow ctx.thread h with
      | .ok w => .ok (borrowedBody ctx h [] steps, (m.opening ctx).withWorld w)
      | .error e => .error (.access e) := by
  have hname' : (m.opening ctx).handleNamed ctx.thread n = .ok h := hname
  show (do
    let handle ← (m.opening ctx).handleNamed ctx.thread n
    (m.opening ctx).opened (((m.opening ctx).world.borrow ctx.thread handle).map (handle, ·))
      fun h => borrowedBody ctx h [] steps) = _
  rw [hname']
  show (m.opening ctx).opened (((m.opening ctx).world.borrow ctx.thread h).map (h, ·))
    (fun h => borrowedBody ctx h [] steps) = _
  cases (m.opening ctx).world.borrow ctx.thread h <;> rfl

/-- Let a thread obtain a handle, and then go on for as long as it likes without being ended. The
handle is to the binding in force when it was obtained, and to no other ever. Later

* a closure through the handle opens if and only if the episode lasts, the instance is live and no
  closure of the episode is under way, and then it has the handle's storage in hand;
* whatever handle is obtained during the episode is the same, so it is to the same storage;
* an episode that has ended does not begin again: every closure through the handle is refused, for
  want of a binding when no closure of the episode is under way any more. -/
theorem handles_and_episodes (hm : Reachable settled m) (hobtains : m.Obtains tok h t)
    (hrun : Run (lasting t) m.step m') :
    m.step.Lasts t tok h ∧
    (∀ ctx n steps, ctx.thread = t → m'.session.handleNamed t n = .ok h →
      ((∃ b s, (m'.opening ctx).enter ctx (.ofHandle n) steps = .ok (b, s)) ↔
        m'.Lasts t tok h ∧ m'.session.world.isLive h.target = true ∧ (t, h.storage) ∉ m'.uses) ∧
      ∀ b s, (m'.opening ctx).enter ctx (.ofHandle n) steps = .ok (b, s) →
        b.context.focus = .threadVars t h.storage) ∧
    (∀ h', m'.Obtains tok h' t → m'.step.Lasts t tok h → h' = h) ∧
    (¬ m'.Lasts t tok h → ∀ m'', Run (lasting t) m' m'' → ¬ m''.Lasts t tok h ∧
      ∀ ctx n steps, ctx.thread = t → m''.session.handleNamed t n = .ok h →
        ∃ e, (m''.opening ctx).enter ctx (.ofHandle n) steps = .error (.access e) ∧
          ((t, h.storage) ∉ m''.uses → e = .noActiveInstance)) := by
  have hlasts := lasts_of_obtains (kept_of_reachable hm) hobtains
  have hlasting := lasting_of_obtains hobtains
  have hm₁ : Reachable settled m.step := hm.run (Run.refl.step (settled_of_lasting hlasting))
  have hm' : Reachable settled m' := hm₁.run (hrun.mono fun _ => settled_of_lasting)
  have hs₁ := threadsSound_of_reachable hm₁
  -- whatever happens meanwhile, the storage of the handle stays drawn, and goes to no other binding
  have hpast' : (m'.session.world.thread t).Past tok h :=
    (past_of_binding (hs₁ t) hlasts).advances (advances_of_run hs₁ hrun)
  refine ⟨hlasts, ?_, ?_, ?_⟩
  · rintro ctx n steps rfl hname
    rw [enter_ofHandle hname]
    have hopening := thread_opening m' ctx
    have hiff := borrow_iff ((threadsSound_of_reachable hm').of_threads hopening)
      (World.Exact.of_threads (exact_of_reachable hm') hopening) (hopening _ ▸ hpast')
    rw [hopening] at hiff
    cases hborrow : (m'.opening ctx).world.borrow ctx.thread h with
    | ok w =>
      refine ⟨⟨fun _ => hiff.1 ⟨w, hborrow⟩, fun _ => ⟨_, _, rfl⟩⟩, fun b s hok => ?_⟩
      obtain ⟨rfl, -⟩ := Prod.mk.inj (Except.ok.inj hok)
      rfl
    | error e =>
      refine ⟨⟨fun ⟨_, _, hok⟩ => (by cases hok), fun hopen => ?_⟩, fun b s hok => (by cases hok)⟩
      obtain ⟨w, hok⟩ := hiff.2 hopen
      have hcontra := hborrow.symm.trans hok
      cases hcontra
  · intro h' hobtains' hlasts'
    exact Option.some.inj ((lasts_of_obtains (kept_of_reachable hm') hobtains').symm.trans hlasts')
  · intro hended m'' hrun'
    have hm'' : Reachable settled m'' := hm'.run (hrun'.mono fun _ => settled_of_lasting)
    have hadv := advances_of_run (threadsSound_of_reachable hm') hrun'
    have hended'' : ¬ m''.Lasts t tok h := hpast'.ended hadv hended
    refine ⟨hended'', ?_⟩
    rintro ctx n steps rfl hname
    rw [enter_ofHandle hname]
    have hopening := thread_opening m'' ctx
    obtain ⟨e, hborrow, hgone⟩ := borrow_ended
      ((threadsSound_of_reachable hm'').of_threads hopening)
      (World.Exact.of_threads (exact_of_reachable hm'') hopening)
      (hopening _ ▸ hpast'.advances hadv) (hopening _ ▸ hended'')
    refine ⟨e, ?_, hgone⟩
    rw [show (m''.opening ctx).world.borrow ctx.thread h = .error e from hborrow]

/-- A program that binds itself to one instance twice. -/
def boundTwice : Machine :=
  start default default 0 [
    .call none (.start "p" none),
    .call none (.process "p" (.create (some "i"))),
    .call none (.process "p" (.bind "i" (some "h"))),
    .call none (.process "p" .release),
    .call none (.process "p" (.bind "i" (some "g")))]

/-- The first handle gives no access when the thread is bound again. -/
theorem refused_when_bound_twice :
    (((boundTwice.run 3).step.run 2).opening { thread := .main }).enter { thread := .main }
      (.ofHandle "h") [] = .error (.access .noActiveInstance) := by
  have hcall : (boundTwice.run 3).nextCall? =
      some ({ thread := .main }, .process "p" (.bind "i" (some "h"))) := by decide +kernel
  have hbinds : (boundTwice.run 3).BindsTo ⟨1⟩ ⟨1⟩ ⟨⟨1⟩, ⟨0⟩⟩ .main :=
    .intro hcall (by rfl) (by rfl) (by rfl)
  have hobtains : (boundTwice.run 3).Obtains ⟨1⟩ ⟨⟨1⟩, ⟨0⟩⟩ .main :=
    .bind hbinds
  have hrun : Run (lasting .main) (boundTwice.run 3).step ((boundTwice.run 3).step.run 2) :=
    .of_run (by decide +kernel)
  have hended : ¬ ((boundTwice.run 3).step.run 2).Lasts .main ⟨1⟩ ⟨⟨1⟩, ⟨0⟩⟩ := by
    unfold Lasts
    decide +kernel
  obtain ⟨-, -, -, hafter⟩ := handles_and_episodes (.of_run (by decide +kernel)) hobtains hrun
  obtain ⟨-, hrefused⟩ := hafter hended _ .refl
  obtain ⟨e, henter, hgone⟩ := hrefused { thread := .main } "h" [] rfl (by rfl)
  rw [henter, hgone (by decide +kernel)]

end Machine

end TieredState
