import TieredState.Proofs.Closed
import TieredState.Proofs.Retention

/-!
# Released keys

The bindings under a process become void when it is shut down and when it is dropped. What is undone at
once is the binding of the thread that does it. Other threads keep theirs, in their slots, until they
next bind themselves. Until then a handle of theirs gives access for as long as its instance is live:
after a shutdown that is while a destruction of the instance is still under way, and after a process
was dropped while a name or something under way refers to the instance.

* `voids_step` — whoever makes bindings void loses its own.
* `Lingers` — what has to be so for a handle to give access still.
* `closures_after_release` — when a closure through a handle opens after the release of the key that
  the handle was obtained under, and for how long.
* `access_after_drop` — it does open on another thread when the process was dropped and the instance is
  referred to elsewhere.
-/

namespace TieredState

namespace World

variable {w w' w'' : World} {t : ThreadId} {tok tok' : Token} {id : InstanceId}

/-! ## Void bindings -/

theorem isReleased_congr (h : w'.processes.get? tok = w.processes.get? tok) :
    w'.isReleased tok = w.isReleased tok := by
  unfold isReleased
  rw [h]

/-- What a thread does for itself releases no key. -/
theorem isReleased_local (hl : Local t w w') (tok : Token) : w'.isReleased tok = w.isReleased tok :=
  isReleased_congr (by rw [hl.processes])

/-- A process that is changed has void bindings if it had. -/
theorem isReleased_modifyProcess (f : Process → Process)
    (hf : ∀ p, w.processes.get? tok' = some p → (f p).released = p.released) (tok : Token) :
    (w.modifyProcess tok' f).isReleased tok = w.isReleased tok := by
  by_cases heq : tok = tok'
  · subst heq
    unfold isReleased
    rw [get?_modifyProcess, if_pos rfl]
    cases hp : w.processes.get? tok with
    | none => rfl
    | some p => exact hf p hp
  · refine isReleased_congr ?_
    rw [get?_modifyProcess, if_neg heq]

theorem isReleased_calm (hc : Calm w w') (tok : Token) : w'.isReleased tok = w.isReleased tok := by
  have hle : ∀ {w w' : World}, Calm w w' → w.isReleased tok = false → w'.isReleased tok = false := by
    intro w w' hc hrel
    obtain ⟨p, hp, hreleased⟩ := isReleased_iff.1 hrel
    obtain ⟨p', hp', -, -, -, hsame⟩ := hc.symm.process_of hp
    exact isReleased_iff.2 ⟨p', hp', hsame.trans hreleased⟩
  cases hrel : w.isReleased tok with
  | false => exact hle hc hrel
  | true =>
    refine Bool.of_not_eq_false fun hrel' => ?_
    rw [hle hc.symm hrel'] at hrel
    cases hrel

/-- Bindings that are void stay so, and instances that are dead. -/
theorem Ages.released (h : Ages w w') (hdrawn : tok.number < w.nextToken)
    (hrel : w.isReleased tok = true) : w'.isReleased tok = true := by
  refine Bool.of_not_eq_false fun hrel' => ?_
  obtain ⟨p', hp', hreleased'⟩ := isReleased_iff.1 hrel'
  rcases h.processes tok p' hp' with ⟨p, hp, -, hvoid, -⟩ | ⟨hle, -⟩
  · have hreleased : p.released = false := by
      refine Bool.eq_false_iff.2 fun hreleased => ?_
      rw [hvoid hreleased] at hreleased'
      cases hreleased'
    rw [isReleased_iff.2 ⟨p, hp, hreleased⟩] at hrel
    cases hrel
  · omega

/-- What is dead stays so as the world ages. -/
theorem Ages.dead (h : Ages w w') (hdrawn : id.number < w.nextInstance)
    (hdead : w.isLive id = false) : w'.isLive id = false := by
  refine Bool.eq_false_iff.2 fun hlive => ?_
  rcases h.live id hlive with hold | ⟨hle, -⟩
  · rw [hdead] at hold
    cases hold
  · omega

/-- The bindings under the process are void only if they were so before, or else the thread has none. -/
def Voids (t : ThreadId) (tok : Token) (w w' : World) : Prop :=
  w'.isReleased tok = true → w.isReleased tok = true ∨ (w'.thread t).binding? tok = none

/-- Where the key stays as it is, nothing is made void. -/
theorem Voids.of_eq (h : w'.isReleased tok = w.isReleased tok) : Voids t tok w w' :=
  fun hrel => .inl (h ▸ hrel)

/-- What is void before and afterwards makes no difference, as long as no binding is added. -/
theorem Voids.trans (h : Voids t tok w w') (h' : Voids t tok w' w'') (hunbinds : Unbinds tok w' w'') :
    Voids t tok w w'' := by
  intro hrel
  rcases h' hrel with hrel' | hnone
  · refine (h hrel').imp_right fun hnone => ?_
    exact Option.eq_none_iff_forall_ne_some.2 fun b hb => by
      rw [hunbinds t b hb] at hnone
      cases hnone
  · exact .inr hnone

/-- A key that is released leaves no binding to the thread that releases it. -/
theorem voids_releaseKey (w : World) (t : ThreadId) (tok' tok : Token) :
    Voids t tok w (w.releaseKey t tok') := by
  intro hrel
  rw [isReleased_releaseKey, Bool.or_eq_true, decide_eq_true_eq] at hrel
  refine hrel.symm.imp_right ?_
  rintro rfl
  unfold releaseKey
  rw [thread_setThread_self, Thread.binding?_dropSlot, if_pos rfl]

theorem isReleased_tearDown (w : World) (t : ThreadId) (tok' : Token) (id : InstanceId)
    (tok : Token) : (w.tearDown t tok' id).isReleased tok = w.isReleased tok := by
  rcases tearDown_cases w t tok' id with ⟨heq, -⟩ | ⟨-, hspec⟩
  · rw [heq]
    rfl
  · exact isReleased_local hspec.frame tok

end World

namespace Machine

open World Thread Session

variable {allowed : Machine → Bool} {m m' m₁ m₂ m₃ : Machine} {v v' : View} {t : ThreadId}
  {tok : Token} {id : InstanceId} {h : Handle}

/-- A thread that shuts a process down is the one that takes the step. -/
theorem actor_of_shutsDown (h : m.ShutsDown t tok) : t = m.actor := by
  rcases h with ⟨ctx, p, hcall, rfl, -⟩ | ⟨d, rest, count, hfin, -, rfl, -⟩
  · exact (actor_of_nextCall? hcall).symm
  · exact (actor_of_finishing? hfin).symm

/-- The end of closures releases no key. -/
theorem EndUses.isReleased {w w' : World} {ended : List (ThreadId × StorageId)}
    (he : EndUses w ended w') (tok : Token) : w'.isReleased tok = w.isReleased tok := by
  induction he with
  | done hc => exact isReleased_calm hc tok
  | calm hc _ ih => exact ih.trans (isReleased_calm hc tok)
  | storage _ ih => exact ih.trans (isReleased_local (endBorrow_spec _ _ _).frame tok)

/-- A move that makes bindings void leaves none to the thread that acts. -/
theorem Move.voids (h : Move m v v') (hdrawn : tok.number < v.world.nextToken) :
    Voids m.actor tok v.world v'.world := by
  cases h with
  | calm hc => exact .of_eq (isReleased_calm hc tok)
  | start c hc =>
    -- a new process has a token that was not drawn before, so it is not this one
    have hne : tok ≠ ⟨v.world.nextToken⟩ := by
      rintro rfl
      exact Nat.lt_irrefl _ hdrawn
    refine .of_eq ((isReleased_calm hc tok).trans (isReleased_congr ?_))
    rw [get?_start, if_neg hne]
  | endThread _ => exact .of_eq (isReleased_local (local_withoutThread _ _) tok)
  | bind _ => exact .of_eq (isReleased_local (local_bind _ _ _ _) tok)
  | release _ hr => exact .of_eq (isReleased_local (local_release hr) tok)
  | enroll t tok' parent? =>
    refine .of_eq ?_
    rcases enroll_cases v.world t tok' parent? with ⟨e, heq⟩ | ⟨e, heq⟩ | ⟨p, -, -, heq⟩ <;> rw [heq]
    · rfl
    exact isReleased_modifyProcess (·.register _) (fun _ _ => rfl) tok
  | withdraw hw =>
    obtain ⟨p, -, -, -, rfl⟩ := withdraw_ok hw
    exact .of_eq (isReleased_modifyProcess (withdrawn _) (fun _ _ => rfl) tok)
  | beginShutdown hw =>
    obtain ⟨p, -, -, rfl⟩ := beginShutdown_ok hw
    exact .of_eq (isReleased_modifyProcess (drained _) (fun _ _ => rfl) tok)
  | shutdown hdown hw =>
    obtain ⟨p, -, -, rfl⟩ := beginShutdown_ok hw
    obtain rfl := actor_of_shutsDown hdown
    exact Voids.trans (.of_eq (isReleased_modifyProcess (drained _) (fun _ _ => rfl) tok))
      (voids_releaseKey _ _ _ tok) (.releaseKey _ _ _)
  | tearDown _ _ => exact .of_eq (isReleased_tearDown _ _ _ _ tok)
  | endShutdown _ hdown _ _ =>
    obtain rfl := actor_of_shutsDown hdown
    exact Voids.trans (.of_eq (isReleased_tearDown _ _ _ _ tok)) (voids_releaseKey _ _ _ tok)
      (.releaseKey _ _ _)
  | borrow hw => exact .of_eq (isReleased_local (borrow_ok hw).frame tok)
  | endUses _ he => exact .of_eq (he.isReleased tok)

/-- Of all that a step can do, it is the release of a key that makes bindings void, and it takes the
binding of its own thread. -/
theorem voids_act (hdrawn : tok.number < m.session.world.nextToken) :
    Voids m.actor tok m.session.world m.act.session.world := by
  -- only moves release keys, while an edit of a registry and an unwinding do not
  rcases turn_move (act_turn m) with ⟨w, hc, hmove⟩ | ⟨ctx, c, o, s, -, hedit, hserved, hscene⟩ |
      ⟨ctx, -, -, hscene⟩
  · have hdrawn' : tok.number < w.nextToken := hc.nextToken ▸ hdrawn
    have hmoved := hmove.voids hdrawn'
    rw [view_scene] at hmoved
    intro hrel
    exact (hmoved hrel).imp_left fun h => (isReleased_calm hc tok).symm.trans h
  · have hworld : m.act.session.world = s.world := congrArg (·.session.world) hscene
    refine .of_eq ?_
    rw [hworld]
    rcases edit_cases hedit hserved with heq | ⟨tok', p, registry, hp, heq⟩
    · rw [heq]
      rfl
    · rw [heq]
      refine isReleased_modifyProcess _ (fun q hq => ?_) tok
      rw [Option.some.inj (hq.symm.trans hp)]
  · have hworld : m.act.session.world = (unwind (m.opening ctx) m.stack).1.world :=
      congrArg (·.session.world) hscene
    obtain ⟨ended, -, hended⟩ := endUses_unwind (m.opening ctx) m.stack
    refine .of_eq ?_
    rw [hworld]
    exact hended.isReleased tok

/-- A step that makes bindings void leaves none to the thread that acts. -/
theorem voids_step (hdrawn : tok.number < m.session.world.nextToken) :
    Voids m.actor tok m.session.world m.step.session.world := by
  refine (voids_act hdrawn).trans (fun hrel => ?_) (unbinds_sweep m tok)
  by_cases hlost : tok ∈ m.act.session.lost m.act.heldTokens
  · right
    have hthread : m.step.session.world.thread m.actor = _ := thread_sweep _ _ _ _ _
    unfold binding?
    rw [hthread, if_pos rfl, slots_dropSlots, if_pos hlost]
    rfl
  · left
    have hproc : m.step.session.world.processes.get? tok = _ := processes_sweep _ _ _ _ tok
    rw [if_neg hlost] at hproc
    exact (isReleased_congr hproc).symm.trans hrel

/-! ## Runs -/

/-- A process that is shut down has no members. -/
theorem closed_of_shutDown (hm : Reachable orderly m) {p : Process}
    (hp : m.session.world.processes.get? tok = some p) (hdown : p.phase = .shutDown) :
    m.session.world.Closed tok := by
  obtain ⟨files, environment, fieldCount, script, hrun⟩ := hm
  -- the shutdown takes all members, and afterwards nothing joins
  have hempty : ∀ p, m.session.world.processes.get? tok = some p → p.phase = .shutDown →
      p.registry.members = [] := by
    clear hp hdown
    induction hrun with
    | refl => exact fun _ hp => by cases hp
    | step _ hok ih =>
      have hcourses := courses_step fun _ _ => editsRegistry_of_orderly hok
      intro p' hp' hdown'
      rcases hcourses.processes tok p' hp' with ⟨p, hp, hpasses⟩ | ⟨-, -, -, hnone⟩
      · cases hpasses with
        | stays hphase hmem =>
          rw [ih p hp (hphase.symm.trans hdown')] at hmem
          exact List.subset_nil.1 hmem
        | registers _ hrunning _ _ =>
          rw [hrunning] at hdown'
          cases hdown'
        | shutsDown _ _ hnone => exact hnone
      · exact hnone
    | redirect _ steps ih =>
      rw [world_redirect]
      exact ih
  have hdrawn := ((dated_of_reachable ⟨files, environment, fieldCount, script, hrun⟩).processes tok p hp).1
  refine ⟨hdrawn, fun q hq => ?_⟩
  obtain rfl := Option.some.inj (hp.symm.trans hq)
  exact ⟨hdown, hempty p hp hdown⟩

/-- A thread that binds itself drops the bindings that are void. -/
theorem not_lasts_of_bindsTo (hm : Reachable settled m) (hrel : m.session.world.isReleased tok = true)
    {tok' : Token} {h' : Handle} (hbinds : m.BindsTo tok' id h' t) : ¬ m.step.Lasts t tok h := by
  obtain ⟨w, -, hprocesses, -, ⟨p, hp⟩, -, -, hworld⟩ := step_of_bindsTo (kept_of_reachable hm) hbinds
  have hrel' : w.isReleased tok = true := by
    rw [← hrel]
    exact isReleased_congr (by rw [hprocesses])
  have hne : tok ≠ tok' := by
    rintro rfl
    have hlive : m.session.world.live tok = .ok p := by
      rw [live_ok] at hp ⊢
      rwa [hprocesses] at hp
    rw [(dated_of_reachable hm).not_released hlive] at hrel
    cases hrel
  have hothers := (bindThread_spec w t tok' id).others tok hne
  unfold Lasts
  rw [hworld, hothers, if_pos hrel']
  exact nofun

/-! ## Handles after the release -/

/-- The next step makes the bindings under the process void: it is shut down, or dropped. -/
def ReleasesKey (m : Machine) (tok : Token) : Prop :=
  m.session.world.isReleased tok = false ∧ m.step.session.world.isReleased tok = true

/-- The handle gives the thread access: its episode lasts, its instance is live, and no closure of the
episode is under way. -/
def Gives (m : Machine) (t : ThreadId) (tok : Token) (h : Handle) : Prop :=
  m.Lasts t tok h ∧ m.session.world.isLive h.target = true ∧ (t, h.storage) ∉ m.uses

/-- What a thread is bound under, and to, was drawn. -/
theorem drawn_of_lasts (hm : Reachable allowed m) (hlasts : m.Lasts t tok h) :
    tok.number < m.session.world.nextToken ∧ h.target.number < m.session.world.nextInstance := by
  obtain ⟨past, hhistory⟩ := hm.history
  exact (retains_of_history hhistory t tok h.target).bound h hlasts

/-- What has to be so for a handle to give access still, when its key was released by the step taken at
`m₁`. -/
structure Lingers (m₁ m : Machine) (t : ThreadId) (tok : Token) (h : Handle) : Prop where
  /-- Another thread released the key. -/
  elsewhere : m₁.actor ≠ t
  /-- The thread has not bound itself since. -/
  idle : ∀ m' tok' id h', Run (lasting t) m₁.step m' → Run (lasting t) m'.step m →
    ¬ m'.BindsTo tok' id h' t
  /-- After a shutdown, a destruction of the instance is under way still. -/
  condemned : ∀ m' p, Reachable orderly m' → m'.session.world.processes.get? tok = some p →
    p.phase = .shutDown → Run orderly m' m → h.target ∈ m.condemned
  /-- When the process is gone, a name or something under way refers to the instance. -/
  referred : Reachable orderly m → m.session.world.processes.get? tok = none →
    h.target ∈ m.session.instances.values ++ m.heldIds

/-- An instance that is live after its process was shut down is still to be torn down. -/
theorem condemned_after_shutdown {p : Process} (hm : Reachable orderly m)
    (hp : m.session.world.processes.get? tok = some p) (hdown : p.phase = .shutDown)
    (hrun : Run orderly m m') (hlasts : m'.Lasts t tok h)
    (hlive : m'.session.world.isLive h.target = true) : h.target ∈ m'.condemned := by
  have hs := sound_of_reachable hm
  have hclosed := closed_of_shutDown hm hp hdown
  have hbound : m.Lasts t tok h := (closed_of_run hclosed hrun).2 t h hlasts
  have hlive' : m.session.world.isLive h.target = true := by
    refine Bool.of_not_eq_false fun hdead => ?_
    have hdead' := (ages_of_run (dated_of_reachable hm) hrun).dead (drawn_of_lasts hm hbound).2 hdead
    rw [hlive] at hdead'
    cases hdead'
  exact condemned_of_run hs hrun (condemned_of_bound hs hclosed ⟨p, hp⟩ hbound hlive') hlive

/-- An instance that is live when its process is gone is referred to. -/
theorem referred_when_gone (hm : Reachable orderly m)
    (hgone : m.session.world.processes.get? tok = none) (hlasts : m.Lasts t tok h)
    (hlive : m.session.world.isLive h.target = true) :
    h.target ∈ m.session.instances.values ++ m.heldIds := by
  have hs := sound_of_reachable hm
  obtain ⟨i, hi, -⟩ := isLive_iff.1 hlive
  obtain rfl := (hs.bindings.bound t tok h hlasts).2 i hi
  rcases Bool.or_eq_true_iff.1 ((kept_of_reachable hm).instances h.target i hi) with hnamed | hregistered
  · exact List.contains_iff_mem.1 hnamed
  · -- no other process has it in its registry
    obtain ⟨p, hmem, hid⟩ := List.any_eq_true.1 hregistered
    obtain ⟨tok', hp⟩ := Table.mem_values.1 hmem
    obtain ⟨-, i', hi', howner, -⟩ := hs.registry.member tok' p h.target hp (List.contains_iff_mem.1 hid)
    obtain rfl := Option.some.inj (hi.symm.trans hi')
    rw [howner, hp] at hgone
    cases hgone

/-- Let a thread obtain a handle under a process whose key is released later. From then on

* a closure through the handle opens exactly if the handle gives access;
* it does so only on a thread other than the one that released the key, until that thread binds itself
  again, and only to an instance that is being destroyed or that outlived its process;
* once the binding is gone or the instance is dead, the handle never gives access again. -/
theorem closures_after_release (hm : Reachable settled m) (hobtains : m.Obtains tok h t)
    (hrun : Run (lasting t) m.step m₁) (hlasting : m₁.lasting t = true) (hrel : m₁.ReleasesKey tok)
    (hrun' : Run (lasting t) m₁.step m₂) :
    (∀ ctx n steps, ctx.thread = t → m₂.session.handleNamed t n = .ok h →
      ((∃ b s, (m₂.opening ctx).enter ctx (.ofHandle n) steps = .ok (b, s)) ↔ m₂.Gives t tok h)) ∧
    (m₂.Gives t tok h → Lingers m₁ m₂ t tok h) ∧
    (¬ m₂.Lasts t tok h ∨ m₂.session.world.isLive h.target = false →
      ∀ m₃, Run (lasting t) m₂ m₃ → ¬ m₃.Gives t tok h) := by
  have hstart : Reachable settled m.step :=
    hm.run (Run.refl.step (settled_of_lasting (lasting_of_obtains hobtains)))
  have hto := hrun.step hlasting
  have hm₂ : Reachable settled m₂ := hstart.run ((hto.trans hrun').mono fun _ => settled_of_lasting)
  obtain ⟨hlasts, hopens, -, -⟩ := handles_and_episodes hm hobtains (hto.trans hrun')
  obtain ⟨htok, htarget⟩ := drawn_of_lasts hstart hlasts
  have hstay : ∀ {m'}, Run (lasting t) m.step m' →
      tok.number < m'.session.world.nextToken ∧ h.target.number < m'.session.world.nextInstance := by
    intro m' hrun
    have hages := ages_of_run (dated_of_reachable hstart) hrun
    exact ⟨Nat.lt_of_lt_of_le htok hages.nextToken, Nat.lt_of_lt_of_le htarget hages.nextInstance⟩
  -- an episode that has ended does not begin again
  have hended : ∀ {m' m''}, Run (lasting t) m.step m' → ¬ m'.Lasts t tok h →
      Run (lasting t) m' m'' → ¬ m''.Lasts t tok h := by
    intro m' m'' hrun hnot hrun'
    obtain ⟨-, -, -, hafter⟩ := handles_and_episodes hm hobtains hrun
    exact (hafter hnot m'' hrun').1
  refine ⟨fun ctx n steps ht hname => (hopens ctx n steps ht hname).1, fun hgives => ?_, ?_⟩
  · refine ⟨?_, fun m' tok' id h' hsince hthen hbinds => ?_, fun m' p hm' hp hdown hafter => ?_,
      fun horderly hgone => ?_⟩
    · rintro rfl
      rcases voids_step (hstay hrun).1 hrel.2 with hrel' | hnone
      · rw [hrel.1] at hrel'
        cases hrel'
      · refine hended hto (fun hlasts => ?_) hrun' hgives.1
        rw [hlasts] at hnone
        cases hnone
    · have hm' : Reachable settled m' :=
        hstart.run ((hto.trans hsince).mono fun _ => settled_of_lasting)
      have hrel' := (ages_of_run (dated_of_reachable (hstart.run (hto.mono fun _ =>
        settled_of_lasting))) hsince).released (hstay hto).1 hrel.2
      have hbound := (hto.trans hsince).step (lasting_of_obtains (.bind hbinds))
      exact hended hbound (not_lasts_of_bindsTo hm' hrel' hbinds) hthen hgives.1
    · exact condemned_after_shutdown hm' hp hdown hafter hgives.1 hgives.2.1
    · exact referred_when_gone horderly hgone hgives.1 hgives.2.1
  · rintro (hnot | hdead) m₃ hrun₃ hgives
    · exact hended (hto.trans hrun') hnot hrun₃ hgives.1
    · have hdead' := (ages_of_run (dated_of_reachable hm₂) hrun₃).dead (hstay (hto.trans hrun')).2 hdead
      rw [hgives.2.1] at hdead'
      cases hdead'

/-- A program that drops a process while a worker is bound to an instance that has a name. The worker is
bound under another process later. -/
def droppedElsewhere : Machine :=
  start default default 0 [
    .call none (.start "p" none),
    .call none (.process "p" (.create (some "i"))),
    .call (some "a") (.process "p" (.bind "i" (some "h"))),
    .call none (.dropProcess "p"),
    .closure (some "a") (.ofHandle "h") [],
    .call none (.start "q" none),
    .call none (.process "q" (.create (some "j"))),
    .call (some "a") (.process "q" (.bind "j" none))]

/-- The handle is obtained at the third step. -/
theorem obtains_droppedElsewhere :
    (droppedElsewhere.run 3).Obtains ⟨1⟩ ⟨⟨1⟩, ⟨0⟩⟩ (.worker "a") := by
  have hcall : (droppedElsewhere.run 3).nextCall? =
      some ({ thread := .worker "a" }, .process "p" (.bind "i" (some "h"))) := by decide +kernel
  have hbinds : (droppedElsewhere.run 3).BindsTo ⟨1⟩ ⟨1⟩ ⟨⟨1⟩, ⟨0⟩⟩ (.worker "a") :=
    .intro hcall (by rfl) (by rfl) (by rfl)
  exact .bind hbinds

/-- The worker has access when the process is gone, and has none any more when it has bound itself. -/
theorem lingers_until_bound :
    Lingers (droppedElsewhere.run 4) (droppedElsewhere.run 5) (.worker "a") ⟨1⟩ ⟨⟨1⟩, ⟨0⟩⟩ ∧
      ¬ (droppedElsewhere.run 11).Gives (.worker "a") ⟨1⟩ ⟨⟨1⟩, ⟨0⟩⟩ := by
  have hm : Reachable settled (droppedElsewhere.run 3) := .of_run (by decide +kernel)
  have hrel : (droppedElsewhere.run 4).ReleasesKey ⟨1⟩ := by
    unfold ReleasesKey
    decide +kernel
  have hlater : Run (lasting (.worker "a")) (droppedElsewhere.run 5) (droppedElsewhere.run 10) :=
    .of_run (n := 5) (by decide +kernel)
  have hafter := fun m₂ (hrun : Run (lasting (.worker "a")) (droppedElsewhere.run 5) m₂) =>
    closures_after_release hm obtains_droppedElsewhere .refl (by decide +kernel) hrel hrun
  have hgives : (droppedElsewhere.run 5).Gives (.worker "a") ⟨1⟩ ⟨⟨1⟩, ⟨0⟩⟩ := by
    unfold Gives Lasts
    decide +kernel
  refine ⟨(hafter _ .refl).2.1 hgives, fun hgives' => ?_⟩
  have hcall : (droppedElsewhere.run 10).nextCall? =
      some ({ thread := .worker "a" }, .process "q" (.bind "j" none)) := by decide +kernel
  have hbinds : (droppedElsewhere.run 10).BindsTo ⟨2⟩ ⟨2⟩ ⟨⟨2⟩, ⟨1⟩⟩ (.worker "a") :=
    .intro hcall (by rfl) (by rfl) (by rfl)
  have hstep : (droppedElsewhere.run 10).lasting (.worker "a") = true := by decide +kernel
  exact ((hafter _ (hlater.step hstep)).2.1 hgives').idle _ _ _ _ hlater .refl hbinds

/-- It is not so that handles give no access when the key is released that they were obtained under. -/
theorem access_after_drop :
    ¬ ∀ (m m₁ m₂ : Machine) (t : ThreadId) (tok : Token) (h : Handle) (ctx : Context) (n : Name)
        (steps : List Step),
      Reachable settled m → m.Obtains tok h t → Run (lasting t) m.step m₁ → m₁.lasting t = true →
      m₁.ReleasesKey tok → Run (lasting t) m₁.step m₂ → Reachable orderly m₂ → m₂.uses = [] →
      ctx.thread = t → m₂.session.handleNamed t n = .ok h →
      ∃ e, (m₂.opening ctx).enter ctx (.ofHandle n) steps = .error e := by
  intro hall
  have hrel : (droppedElsewhere.run 4).ReleasesKey ⟨1⟩ := by
    unfold ReleasesKey
    decide +kernel
  obtain ⟨e, he⟩ := hall (droppedElsewhere.run 3) (droppedElsewhere.run 4) (droppedElsewhere.run 5)
    (.worker "a") ⟨1⟩ ⟨⟨1⟩, ⟨0⟩⟩ { thread := .worker "a" } "h" [] (.of_run (by decide +kernel))
    obtains_droppedElsewhere .refl (by decide +kernel) hrel .refl (.of_run (by decide +kernel))
    (by decide +kernel) rfl (by rfl)
  have hopens : (((droppedElsewhere.run 5).opening { thread := .worker "a" }).enter
      { thread := .worker "a" } (.ofHandle "h") []).toBool = true := by decide +kernel
  rw [he] at hopens
  cases hopens

end Machine

end TieredState
