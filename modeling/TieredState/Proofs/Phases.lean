import TieredState.Proofs.Accesses
import TieredState.Proofs.Flags
import TieredState.Proofs.HookDispatch

/-!
# The life of a process

A process starts up until the first instance is registered with it, runs until it is shut down, and
stays so. Each step takes a process along one of three ways at most: it stays as it is, an instance is
registered, or it is shut down (`Passes`). This holds of steps of any kind, failures that unwind hooks
included, as long as nothing goes past the checks.

* `courses_step` — how a step takes the processes on.
* `chronicle_of_history` — whether a process is past its startup can be told from the registrations in
  its past.
* `startup_sealed` — the phase goes forward, and with the startup ends the time in which the flags of
  the process can be written.
-/

namespace TieredState

/-! ## Phases -/

namespace Phase

/-- How the phase of a process can change. -/
inductive Advances : Phase → Phase → Prop
  | opens : Advances .startup .running
  | closes : Advances .running .shutDown
  | abandons : Advances .startup .shutDown

theorem Advances.trans {a b c : Phase} (h : a.Advances b) (h' : b.Advances c) : a.Advances c := by
  cases h <;> cases h'
  exact .abandons

end Phase

namespace Process

/-- How a step takes a process on: `n` is the identity that is drawn next before the step, and `n'`
the one after it. -/
inductive Passes (n n' : Nat) (p p' : Process) : Prop
  | stays (hphase : p'.phase = p.phase) (hmem : p'.registry.members ⊆ p.registry.members)
  | registers (hlive : p.phase ≠ .shutDown) (hphase : p'.phase = .running) (hdrawn : n < n')
    (hmem : ∀ id, id ∈ p'.registry.members ↔ id = ⟨n⟩ ∨ id ∈ p.registry.members)
  | shutsDown (hlive : p.phase ≠ .shutDown) (hphase : p'.phase = .shutDown)
    (hmem : p'.registry.members = [])

variable {n n' : Nat} {p p' : Process}

/-- Whatever a step does to a process, its phase stays or advances. -/
theorem Passes.advances (h : p.Passes n n' p') :
    p'.phase = p.phase ∨ p.phase.Advances p'.phase := by
  cases h with
  | stays hphase => exact .inl hphase
  | registers hlive hphase =>
    rw [hphase]
    cases hp : p.phase with
    | startup => exact .inr .opens
    | running => exact .inl rfl
    | shutDown => exact absurd hp hlive
  | shutsDown hlive hphase =>
    rw [hphase]
    cases hp : p.phase with
    | startup => exact .inr .abandons
    | running => exact .inr .closes
    | shutDown => exact absurd hp hlive

end Process

namespace World

variable {w w₁ w₂ w' w'' : World} {t : ThreadId} {tok : Token} {id : InstanceId}

/-! ## Where nothing happens to phases -/

/-- The processes that are there have the phases and the registries that they had. -/
structure Rests (w w' : World) : Prop where
  nextInstance : w'.nextInstance = w.nextInstance
  nextToken : w'.nextToken = w.nextToken
  processes : ∀ tok p', w'.processes.get? tok = some p' →
    ∃ p, w.processes.get? tok = some p ∧ p.phase = p'.phase ∧ p.registry = p'.registry

namespace Rests

/-- Processes may go. -/
theorem of_sub (h : ∀ tok p, w'.processes.get? tok = some p → w.processes.get? tok = some p)
    (hnext : w'.nextInstance = w.nextInstance) (htoken : w'.nextToken = w.nextToken) : Rests w w' :=
  ⟨hnext, htoken, fun tok p hp => ⟨p, h tok p hp, rfl, rfl⟩⟩

theorem refl (w : World) : Rests w w := of_sub (fun _ _ => id) rfl rfl

theorem trans (h : Rests w w') (h' : Rests w' w'') : Rests w w'' where
  nextInstance := h'.nextInstance.trans h.nextInstance
  nextToken := h'.nextToken.trans h.nextToken
  processes tok p'' hp'' := by
    obtain ⟨p', hp', hphase', hreg'⟩ := h'.processes tok p'' hp''
    obtain ⟨p, hp, hphase, hreg⟩ := h.processes tok p' hp'
    exact ⟨p, hp, hphase.trans hphase', hreg.trans hreg'⟩

theorem calm (h : Calm w w') : Rests w w' where
  nextInstance := h.nextInstance
  nextToken := h.nextToken
  processes tok p' hp' := by
    obtain ⟨p, hp, hphase, -, hreg, -⟩ := h.process_of hp'
    exact ⟨p, hp, hphase, hreg⟩

/-- Processes rest while a thread does something for itself. -/
theorem of_local (h : Local t w w') : Rests w w' :=
  of_sub (fun _ _ hp => h.processes ▸ hp) h.nextInstance h.nextToken

theorem tearDown (w : World) (t : ThreadId) (tok : Token) (id : InstanceId) :
    Rests w (w.tearDown t tok id) := by
  have hmarked : Rests w (w.marked id) := of_sub (fun _ _ hp => hp) rfl rfl
  rcases tearDown_cases w t tok id with ⟨heq, -⟩ | ⟨-, hspec⟩
  · rw [heq]
    exact hmarked
  · exact hmarked.trans (of_local hspec.frame)

/-- Processes rest when a key is released, even the process that it belongs to. -/
theorem releaseKey (w : World) (t : ThreadId) (tok : Token) : Rests w (w.releaseKey t tok) := by
  refine ⟨rfl, rfl, fun tok' p' hp' => ?_⟩
  rcases (get?_modifyProcess_eq_some _ _ _).1 hp' with ⟨rfl, p, hp, rfl⟩ | ⟨-, hp⟩
  · exact ⟨p, hp, rfl, rfl⟩
  · exact ⟨p', hp, rfl, rfl⟩

theorem endUses {ended : List (ThreadId × StorageId)} (h : Machine.EndUses w ended w') :
    Rests w w' := by
  induction h with
  | done hc => exact .calm hc
  | calm hc _ ih => exact (calm hc).trans ih
  | storage _ ih => exact (of_local (endBorrow_spec _ _ _).frame).trans ih

end Rests

/-! ## How processes go on -/

/-- Each process passes on, or is new: it starts up, and has no members. -/
structure Courses (w w' : World) : Prop where
  nextInstance : w.nextInstance ≤ w'.nextInstance
  nextToken : w.nextToken ≤ w'.nextToken
  processes : ∀ tok p', w'.processes.get? tok = some p' →
    (∃ p, w.processes.get? tok = some p ∧ p.Passes w.nextInstance w'.nextInstance p') ∨
    w.nextToken ≤ tok.number ∧ tok.number < w'.nextToken ∧ p'.phase = .startup ∧
      p'.registry.members = []

namespace Courses

/-- A process that rests takes its course. -/
theorem of_rests (h : Rests w w') : Courses w w' where
  nextInstance := Nat.le_of_eq h.nextInstance.symm
  nextToken := Nat.le_of_eq h.nextToken.symm
  processes tok p' hp' := by
    obtain ⟨p, hp, hphase, hreg⟩ := h.processes tok p' hp'
    exact .inl ⟨p, hp, .stays hphase.symm (hreg ▸ List.Subset.refl _)⟩

/-- Nothing happens to phases before and after. -/
theorem between (hbefore : Rests w w₁) (h : Courses w₁ w₂) (hafter : Rests w₂ w') : Courses w w' := by
  have hnext := hbefore.nextInstance
  have htoken := hbefore.nextToken
  have hnext' := hafter.nextInstance
  have htoken' := hafter.nextToken
  -- neither numbers nor phases change outside, so the change in the middle is that of the whole
  refine ⟨?_, ?_, fun tok p' hp' => ?_⟩
  · rw [hnext', ← hnext]
    exact h.nextInstance
  · rw [htoken', ← htoken]
    exact h.nextToken
  · obtain ⟨p₂, hp₂, hphase₂, hreg₂⟩ := hafter.processes tok p' hp'
    rw [htoken', ← htoken, ← hphase₂, ← hreg₂, hnext', ← hnext]
    refine (h.processes tok p₂ hp₂).imp_left ?_
    rintro ⟨p₁, hp₁, hpasses⟩
    obtain ⟨p, hp, hphase, hreg⟩ := hbefore.processes tok p₁ hp₁
    refine ⟨p, hp, ?_⟩
    cases hpasses with
    | stays hsame hmem => exact .stays (by rw [← hphase₂, hsame, hphase]) (by rwa [← hreg₂, hreg])
    | registers hlive hrunning hdrawn hmem =>
      refine .registers (hphase ▸ hlive) (by rw [← hphase₂, hrunning]) hdrawn ?_
      rwa [← hreg₂, hreg]
    | shutsDown hlive hdown hmem =>
      exact .shutsDown (hphase ▸ hlive) (by rw [← hphase₂, hdown]) (by rwa [← hreg₂])

/-- A process that is new starts up, and has no members. -/
theorem start (w : World) (c : Config) : Courses w (w.start c).2 := by
  refine ⟨Nat.le_refl _, Nat.le_succ _, fun tok p hp => ?_⟩
  rw [get?_start] at hp
  split at hp
  · next heq =>
    obtain rfl := Option.some.inj hp
    rw [heq]
    exact .inr ⟨Nat.le_refl _, Nat.lt_succ_self _, rfl, rfl⟩
  · exact .inl ⟨p, hp, .stays rfl (List.Subset.refl _)⟩

/-- A process that registers an instance starts up no more. -/
theorem enroll (w : World) (t : ThreadId) (tok : Token) (parent? : Option InstanceId) :
    Courses w (w.enroll t tok parent?).2 := by
  rcases enroll_cases w t tok parent? with ⟨e, heq⟩ | ⟨e, heq⟩ | ⟨p, hlive, -, heq⟩ <;> rw [heq]
  · exact of_rests (.refl w)
  · exact ⟨Nat.le_succ _, Nat.le_refl _, fun tok p hp =>
      .inl ⟨p, hp, .stays rfl (List.Subset.refl _)⟩⟩
  · refine ⟨Nat.le_succ _, Nat.le_refl _, fun tok' p' hp' => .inl ?_⟩
    rcases get?_enrolled_eq_some.1 hp' with ⟨rfl, q, hq, rfl⟩ | ⟨-, hp⟩
    · obtain ⟨hget, hphase⟩ := live_ok.1 hlive
      rw [hget] at hq
      obtain rfl := Option.some.inj hq
      refine ⟨p, hget, .registers hphase ?_ (Nat.lt_succ_self _) fun id => ?_⟩
      · unfold Process.register
        dsimp only
        cases hp : p.phase with
        | startup => rfl
        | running => rfl
        | shutDown => exact absurd hp hphase
      · exact Registry.mem_insertAscending
    · exact ⟨p', hp, .stays rfl (List.Subset.refl _)⟩

/-- A process that an instance is taken from has one member less. -/
theorem withdraw (h : w.withdraw t tok id = .ok w') : Courses w w' := by
  obtain ⟨p, -, -, -, rfl⟩ := withdraw_ok h
  refine ⟨Nat.le_refl _, Nat.le_refl _, fun tok' p' hp' => .inl ?_⟩
  rcases (get?_modifyProcess_eq_some _ _ _).1 hp' with ⟨rfl, q, hq, rfl⟩ | ⟨-, hp⟩
  · exact ⟨q, hq, .stays rfl fun _ => List.mem_of_mem_filter⟩
  · exact ⟨p', hp, .stays rfl (List.Subset.refl _)⟩

/-- A process that is shut down has no members. -/
theorem beginShutdown {ids : List InstanceId} (h : w.beginShutdown t tok = .ok (ids, w')) :
    Courses w w' := by
  obtain ⟨p, hlive, -, rfl⟩ := beginShutdown_ok h
  refine ⟨Nat.le_refl _, Nat.le_refl _, fun tok' p' hp' => .inl ?_⟩
  rcases (get?_modifyProcess_eq_some _ _ _).1 hp' with ⟨rfl, q, hq, rfl⟩ | ⟨-, hp⟩
  · obtain ⟨hget, hphase⟩ := live_ok.1 hlive
    rw [hget] at hq
    obtain rfl := Option.some.inj hq
    exact ⟨p, hget, .shutsDown hphase rfl rfl⟩
  · exact ⟨p', hp, .stays rfl (List.Subset.refl _)⟩

end Courses

end World

namespace Machine

open World Session

variable {m m' : Machine} {past : List Machine} {v v' : View} {ctx : Context} {tok : Token}
  {id : InstanceId}

/-! ## Steps -/

/-- In a move every process takes its course. -/
theorem Move.courses (h : Move m v v') : Courses v.world v'.world := by
  cases h with
  | calm hc => exact .of_rests (.calm hc)
  | start c hc => exact .between (.refl _) (.start _ c) (.calm hc)
  | endThread _ => exact .of_rests (.of_local (local_withoutThread _ _))
  | bind _ => exact .of_rests (.of_local (local_bind _ _ _ _))
  | release _ hr => exact .of_rests (.of_local (local_release hr))
  | enroll t tok parent? => exact .enroll _ _ _ _
  | withdraw hw => exact .withdraw hw
  | beginShutdown hw => exact .beginShutdown hw
  | shutdown _ hw => exact .between (.refl _) (.beginShutdown hw) (.releaseKey _ _ _)
  | tearDown _ _ => exact .of_rests (.tearDown _ _ _ _)
  | endShutdown _ _ _ _ => exact .of_rests ((Rests.tearDown _ _ _ _).trans (.releaseKey _ _ _))
  | borrow hw => exact .of_rests (.of_local (borrow_ok hw).frame)
  | endUses _ he => exact .of_rests (.endUses he)

/-- The next step changes neither a registry nor a flag past every check. -/
def unforced (m : Machine) : Bool :=
  !m.nextCall?.any (·.2.editsRegistry) && !m.forcesFlag

/-- A step that forces nothing changes no registry in hand. -/
theorem editsRegistry_of_unforced (h : m.unforced = true) {c : Call}
    (hcall : m.nextCall? = some (ctx, c)) : c.editsRegistry = false := by
  unfold unforced at h
  rw [hcall, Option.any_some] at h
  simpa using (Bool.and_eq_true_iff.1 h).1

/-- Every process takes its course in a step, up to the sweep. -/
theorem courses_act (h : ∀ ctx c, m.nextCall? = some (ctx, c) → c.editsRegistry = false) :
    Courses m.session.world m.act.session.world := by
  have hact : m.act.session.world = m.act.scene.view.world := by
    rw [view_scene]
    rfl
  rw [hact]
  rcases turn_move (act_turn m) with ⟨w, hc, hmove⟩ | ⟨ctx, c, o, s, hcall, hedit, -⟩ | ⟨ctx, -, -, heq⟩
  · exact .between (.calm hc) hmove.courses (.refl _)
  · rw [h ctx c hcall] at hedit
    cases hedit
  · -- unwinding does nothing to processes, whatever it comes to
    rw [heq, Scene.view_of]
    obtain ⟨ended, -, hended⟩ := endUses_unwind (m.opening ctx) m.stack
    have hopening : Rests m.session.world (m.opening ctx).world := .calm (calm_setThread_thread _ _)
    exact .of_rests (hopening.trans (.endUses hended))

theorem rests_sweep (m : Machine) : Rests m.act.session.world m.step.session.world := by
  obtain ⟨-, hproc, hnext, htoken⟩ := sweep_sub m.act.session m.actor m.act.heldTokens m.act.heldIds
  exact .of_sub hproc hnext htoken

/-- Every process takes its course in a step. -/
theorem courses_step (h : ∀ ctx c, m.nextCall? = some (ctx, c) → c.editsRegistry = false) :
    Courses m.session.world m.step.session.world :=
  .between (.refl _) (courses_act h) (rests_sweep m)

/-! ## Runs -/

/-- Over a run the phase of a process changes in the ways in which it can change in a step. -/
theorem phase_of_run (hd : m.Dated) (hrun : Run unforced m m') {p p' : Process}
    (hp : m.session.world.processes.get? tok = some p)
    (hp' : m'.session.world.processes.get? tok = some p') :
    p'.phase = p.phase ∨ p.phase.Advances p'.phase := by
  have htoken := (hd.processes tok p hp).1
  -- the token was drawn before the run, so the process is there all along
  suffices hall : m.session.world.nextToken ≤ m'.session.world.nextToken ∧
      ∀ p', m'.session.world.processes.get? tok = some p' →
        p'.phase = p.phase ∨ p.phase.Advances p'.phase from hall.2 p' hp'
  clear hp'
  induction hrun with
  | refl =>
    refine ⟨Nat.le_refl _, fun p' hp' => .inl ?_⟩
    rw [hp] at hp'
    rw [Option.some.inj hp']
  | step _ hallowed ih =>
    obtain ⟨hle, hsofar⟩ := ih
    have hcourses := courses_step fun _ _ => editsRegistry_of_unforced hallowed
    refine ⟨Nat.le_trans hle hcourses.nextToken, fun p'' hp'' => ?_⟩
    rcases hcourses.processes tok p'' hp'' with ⟨p', hp', hpasses⟩ | ⟨hnew, -⟩
    · rcases hpasses.advances with hsame | hadvances
      · rw [hsame]
        exact hsofar p' hp'
      · rcases hsofar p' hp' with hsame | hadvanced
        · exact .inr (hsame ▸ hadvances)
        · exact .inr (hadvanced.trans hadvances)
    · omega
  | redirect _ steps ih =>
    rw [world_redirect]
    exact ih

/-- What the past of a run says of the processes that there are. -/
structure Chronicle (past : List Machine) (m : Machine) : Prop where
  /-- Members have identities that were drawn. -/
  drawn : ∀ tok p id, m.session.world.processes.get? tok = some p → id ∈ p.registry.members →
    id.number < m.session.world.nextInstance
  /-- What was registered was registered with processes that were started. -/
  known : ∀ m₁ ∈ past, ∀ tok id, m₁.enrolls tok id = true →
    tok.number < m.session.world.nextToken
  /-- A process that is not shut down starts up as long as nothing was registered with it. -/
  startup : ∀ tok p, m.session.world.processes.get? tok = some p → p.phase ≠ .shutDown →
    (p.phase = .startup ↔ ∀ m₁ ∈ past, ∀ id, m₁.enrolls tok id = false)

/-- A step registers an instance with a process when it becomes a member. -/
theorem enrolls_iff_mem {p p' : Process} (hp : m.session.world.processes.get? tok = some p)
    (hp' : m.act.session.world.processes.get? tok = some p') :
    m.enrolls tok id = true ↔ id ∉ p.registry.members ∧ id ∈ p'.registry.members := by
  have hbefore : m.session.world.registers tok id = true ↔ id ∈ p.registry.members := by
    rw [registers_iff]
    simp [hp]
  have hafter : m.act.session.world.registers tok id = true ↔ id ∈ p'.registry.members := by
    rw [registers_iff]
    simp [hp']
  rw [enrolls_iff, hafter, ← hbefore, Bool.not_eq_true]

/-- An instance can be registered only with a process that is there. -/
theorem token_of_enrolls (hd : m.Dated) (hcourses : Courses m.session.world m.act.session.world)
    (h : m.enrolls tok id = true) : tok.number < m.session.world.nextToken := by
  obtain ⟨p', hp', hmem⟩ := registers_iff.1 (enrolls_iff.1 h).2
  rcases hcourses.processes tok p' hp' with ⟨p, hp, -⟩ | ⟨-, -, -, hnone⟩
  · exact (hd.processes tok p hp).1
  · rw [hnone] at hmem
    cases hmem

/-- Members still have identities that were drawn. -/
theorem Chronicle.drawn_act (h : Chronicle past m)
    (hcourses : Courses m.session.world m.act.session.world) {p' : Process}
    (hp' : m.act.session.world.processes.get? tok = some p') (hmem : id ∈ p'.registry.members) :
    id.number < m.act.session.world.nextInstance := by
  rcases hcourses.processes tok p' hp' with ⟨p, hp, hpasses⟩ | ⟨-, -, -, hnone⟩
  · cases hpasses with
    | stays _ hsub => exact Nat.lt_of_lt_of_le (h.drawn tok p id hp (hsub hmem)) hcourses.nextInstance
    | registers _ _ hdrawn hmembers =>
      rcases (hmembers id).1 hmem with rfl | hold
      · exact hdrawn
      · exact Nat.lt_of_lt_of_le (h.drawn tok p id hp hold) hcourses.nextInstance
    | shutsDown _ _ hnone =>
      rw [hnone] at hmem
      cases hmem
  · rw [hnone] at hmem
    cases hmem

/-- A process that is not shut down starts up still, as long as this step registers nothing either. -/
theorem Chronicle.startup_act (h : Chronicle past m) (hd : m.Dated)
    (hcourses : Courses m.session.world m.act.session.world) {p' : Process}
    (hp' : m.act.session.world.processes.get? tok = some p') (hlive : p'.phase ≠ .shutDown) :
    p'.phase = .startup ↔
      (∀ id, m.enrolls tok id = false) ∧ ∀ m₁ ∈ past, ∀ id, m₁.enrolls tok id = false := by
  rcases hcourses.processes tok p' hp' with ⟨p, hp, hpasses⟩ | ⟨hnew, -, hphase, hnone⟩
  · cases hpasses with
    | stays hstays hsub =>
      have hnot : ∀ id, m.enrolls tok id = false := fun id => Bool.eq_false_iff.2 fun henrolls => by
        obtain ⟨hout, hin⟩ := (enrolls_iff_mem hp hp').1 henrolls
        exact hout (hsub hin)
      rw [hstays] at hlive ⊢
      exact (h.startup tok p hp hlive).trans (and_iff_right hnot).symm
    | registers _ hrunning _ hmembers =>
      -- what is registered has not been drawn before, so it is registered now
      have henrolls : m.enrolls tok ⟨m.session.world.nextInstance⟩ = true := by
        refine (enrolls_iff_mem hp hp').2 ⟨fun hold => ?_, (hmembers _).2 (.inl rfl)⟩
        exact Nat.lt_irrefl _ (h.drawn tok p _ hp hold)
      rw [hrunning]
      refine ⟨nofun, fun hnever => ?_⟩
      rw [hnever.1] at henrolls
      cases henrolls
    | shutsDown _ hdown _ => exact absurd hdown hlive
  · -- a process that is new has no past
    refine ⟨fun _ => ⟨fun id => ?_, fun m₁ hm₁ id => ?_⟩, fun _ => hphase⟩
    · refine Bool.eq_false_iff.2 fun henrolls => ?_
      have hlt := token_of_enrolls hd hcourses henrolls
      omega
    · refine Bool.eq_false_iff.2 fun henrolls => ?_
      have hlt := h.known m₁ hm₁ tok id henrolls
      omega

/-- A step goes on with the chronicle. -/
theorem chronicle_step (h : Chronicle past m) (hd : m.Dated) (hok : m.unforced = true) :
    Chronicle (m :: past) m.step := by
  have hedit : ∀ ctx c, m.nextCall? = some (ctx, c) → c.editsRegistry = false :=
    fun _ _ => editsRegistry_of_unforced hok
  have hcourses := courses_act hedit
  have htoken := (courses_step hedit).nextToken
  obtain ⟨-, hproc, hsame, -⟩ := sweep_sub m.act.session m.actor m.act.heldTokens m.act.heldIds
  refine ⟨fun tok p' id hp' hmem => ?_, fun m₁ hm₁ tok id henrolls => ?_, fun tok p' hp' hlive => ?_⟩
  · exact hsame.symm ▸ h.drawn_act hcourses (hproc tok p' hp') hmem
  · rcases List.mem_cons.1 hm₁ with rfl | hm₁
    · exact Nat.lt_of_lt_of_le (token_of_enrolls hd hcourses henrolls) htoken
    · exact Nat.lt_of_lt_of_le (h.known m₁ hm₁ tok id henrolls) htoken
  · rw [List.forall_mem_cons]
    exact h.startup_act hd hcourses (hproc tok p' hp') hlive

/-- At every point of every run the past tells the phase of each process. -/
theorem chronicle_of_history (hm : History unforced past m) : Chronicle past m := by
  obtain ⟨files, environment, fieldCount, script, htrace⟩ := hm
  induction htrace with
  | start => exact ⟨fun _ _ _ hp => (by cases hp), fun _ hm₁ => (by cases hm₁),
      fun _ _ hp => (by cases hp)⟩
  | step htrace hok ih =>
    exact chronicle_step ih (dated_of_reachable ⟨files, environment, fieldCount, script, htrace.run⟩) hok
  | redirect _ steps ih =>
    constructor
    · rw [world_redirect]
      exact ih.drawn
    · rw [world_redirect]
      exact ih.known
    · rw [world_redirect]
      exact ih.startup

/-! ## Writes and reads of flags -/

/-- What becomes of a write of a flag: it sets this flag, and nothing else, when the process starts up
and every lock that the thread holds ranks below the registry's. Otherwise it is refused, and nothing
is changed. -/
structure Writes (m : Machine) (ctx : Context) (tok : Token) (p : Process) (f : StartupFlag)
    (b : Bool) : Prop where
  written : (∀ x ∈ m.session.world.holds ctx.thread, x.rank < Lock.registry.rank) →
    p.phase = .startup → m.step.told? = some (.ok .nothing) ∧
      m.step.scene = .of ((m.opening ctx).modifyProcess tok (f.set b)) m.stack
  refused : ¬((∀ x ∈ m.session.world.holds ctx.thread, x.rank < Lock.registry.rank) ∧
      p.phase = .startup) →
    m.step.told? = some (.error (.access (m.session.world.writeError ctx.thread p f.field))) ∧
      m.step.scene = .of (m.opening ctx) m.stack

theorem mayTake_opening (m : Machine) (ctx : Context) (t : ThreadId) (l : Lock) :
    (m.opening ctx).world.mayTake t l = m.session.world.mayTake t l := by
  unfold mayTake
  rw [thread_opening]

/-- A call that writes a flag does what is said of it. -/
theorem writes_of_nextCall? (hkept : m.Kept) {n : Name} {f : StartupFlag} {b : Bool} {p : Process}
    (hcall : m.nextCall? = some (ctx, .process n (f.write b))) (hproc : m.session.process n = .ok tok)
    (hp : m.session.world.processes.get? tok = some p) : m.Writes ctx tok p f b := by
  have hfail : Call.process n (f.write b) ≠ .fail := nofun
  have hdone : (m.opening ctx).call ctx (.process n (f.write b)) = _ :=
    call_of_plain hproc hp (f.isLifecycle_write b)
  -- all flags are written by one function, with the flag as its argument
  have hplain : (m.opening ctx).plainProcessCall ctx tok p (f.write b) =
      (m.opening ctx).effect
        ((m.opening ctx).world.setStartupFlag ctx.thread tok f.field (f.set b)) := by
    cases f <;> rfl
  rw [hplain] at hdone
  have hkept' : (m.opening ctx).Kept m.heldTokens m.heldIds := ⟨hkept.processes, hkept.instances⟩
  have hmay : (m.opening ctx).world.mayTake ctx.thread .registry = .ok () ↔
      ∀ x ∈ m.session.world.holds ctx.thread, x.rank < Lock.registry.rank := by
    rw [mayTake_opening]
    exact mayTake_ok
  constructor
  · intro hheld hphase
    rw [setStartupFlag_of_startup (hmay.2 hheld) hp hphase] at hdone
    obtain ⟨htold, hscene⟩ := told?_of_done hcall hfail hdone
    have hstep : m.step = m.act :=
      step_eq_act ((kept_of_scene hscene).2 (hkept'.modifyProcess (f.registry_set b)))
    rw [hstep]
    exact ⟨htold, hscene⟩
  · intro hnot
    have herror : (m.opening ctx).world.writeError ctx.thread p f.field =
        m.session.world.writeError ctx.thread p f.field := by
      unfold writeError
      rw [mayTake_opening]
    have hlocked : ¬((m.opening ctx).world.mayTake ctx.thread .registry = .ok () ∧
        p.phase = .startup) := by
      rwa [hmay]
    rw [setStartupFlag_refused (w := (m.opening ctx).world) hp hlocked, herror] at hdone
    obtain ⟨htold, hscene⟩ := told?_of_done hcall hfail hdone
    have hstep : m.step = m.act := step_eq_act ((kept_of_scene hscene).2 hkept')
    rw [hstep]
    exact ⟨htold, hscene⟩

/-- A call that reads a flag tells what it is. -/
theorem told?_of_read {n : Name} {f : StartupFlag} {p : Process}
    (hcall : m.nextCall? = some (ctx, .process n f.read)) (hproc : m.session.process n = .ok tok)
    (hp : m.session.world.processes.get? tok = some p) :
    m.step.told? = some (.ok (.flag (f.get p))) := by
  have hdone : (m.opening ctx).call ctx (.process n f.read) = _ :=
    call_of_plain hproc hp f.isLifecycle_read
  have hplain : (m.opening ctx).plainProcessCall ctx tok p f.read =
      (.ok (.flag (f.get p)), m.opening ctx) := by
    cases f <;> rfl
  rw [hplain] at hdone
  exact (told?_of_done hcall nofun hdone).1

/-! ## The seal -/

/-- How the life of a process and the writes of its flags go together, at the point `m` of a run that
has come by the machines `past`. -/
structure Sealing (past : List Machine) (m : Machine) (tok : Token) : Prop where
  /-- The phase goes from the startup to running, and from either to the shutdown. -/
  onward : ∀ m', Run unforced m m' → ∀ p p', m.session.world.processes.get? tok = some p →
    m'.session.world.processes.get? tok = some p' → p'.phase = p.phase ∨ p.phase.Advances p'.phase
  /-- Until it is shut down, a process starts up exactly as long as no instance was registered. -/
  startup : ∀ p, m.session.world.processes.get? tok = some p → p.phase ≠ .shutDown →
    (p.phase = .startup ↔ ∀ m₁ ∈ past, ∀ id, m₁.enrolls tok id = false)
  /-- A flag is written in the startup, without a lock that ranks too high, and never else. -/
  writes : ∀ ctx n f b p, m.nextCall? = some (ctx, .process n (f.write b)) →
    m.session.process n = .ok tok → m.session.world.processes.get? tok = some p →
    m.Writes ctx tok p f b
  /-- When the startup is over, each flag is what it is, and is read as such, for the rest of the
  run. -/
  sealed : ∀ p, m.session.world.processes.get? tok = some p → p.phase ≠ .startup →
    ∀ m', Run unforced m m' → ∀ p', m'.session.world.processes.get? tok = some p' →
      p'.phase ≠ .startup ∧ ∀ f : StartupFlag, f.get p' = f.get p ∧
        ∀ ctx n, m'.nextCall? = some (ctx, .process n f.read) → m'.session.process n = .ok tok →
          m'.step.told? = some (.ok (.flag (f.get p)))

/-- Whatever operations any threads nest in each other, as long as none goes past the checks. -/
theorem startup_sealed (hm : History unforced past m) (tok : Token) : Sealing past m tok where
  onward _ hrun _ _ hp hp' := phase_of_run (dated_of_reachable hm.reachable) hrun hp hp'
  startup p hp hlive := (chronicle_of_history hm).startup tok p hp hlive
  writes ctx n f b p hcall hproc hp :=
    writes_of_nextCall? (kept_of_reachable hm.reachable) hcall hproc hp
  sealed p hp hpast m' hrun p' hp' := by
    have hseals := seals_of_run hrun fun m₁ h => by
      simpa using (Bool.and_eq_true_iff.1 h).2
    have htoken := ((dated_of_reachable hm.reachable).processes tok p hp).1
    rcases hseals.processes tok p' hp' with hnew | ⟨q, hq, hkeeps⟩
    · omega
    · rw [hp] at hq
      obtain rfl := Option.some.inj hq
      obtain ⟨hphase, hflags⟩ := hkeeps hpast
      refine ⟨hphase, fun f => ⟨hflags f, fun ctx n hcall hproc => ?_⟩⟩
      rw [← hflags f]
      exact told?_of_read hcall hproc hp'

/-- A program that sets a flag, creates an instance and tries to set the flag again. -/
def sealedByCreate : Machine :=
  start default default 0 [
    .call none (.start "p" none),
    .call none (.process "p" (.setDoUndump true)),
    .call none (.process "p" (.create (some "i"))),
    .call none (.process "p" (.setDoUndump false)),
    .call none (.process "p" .doUndump)]

/-- The second write is refused, and the flag is read as it was set by the first one. -/
theorem second_write_refused :
    (sealedByCreate.run 4).step.told? = some (.error (.access (.startupSealed "do_undump"))) ∧
    (sealedByCreate.run 5).step.told? = some (.ok (.flag true)) := by
  have hm : History unforced (trail 4 sealedByCreate []) (sealedByCreate.run 4) :=
    .of_run (by decide +kernel)
  have hrun : Run unforced (sealedByCreate.run 4) (sealedByCreate.run 5) :=
    .step .refl (by decide +kernel)
  have hwrite : (sealedByCreate.run 4).nextCall? =
      some ({ thread := .main }, .process "p" (StartupFlag.doUndump.write false)) := rfl
  have hread : (sealedByCreate.run 5).nextCall? =
      some ({ thread := .main }, .process "p" StartupFlag.doUndump.read) := rfl
  have hget : ((sealedByCreate.run 4).session.world.processes.get? ⟨1⟩).any (fun p =>
      decide (p.phase = .running) && p.doUndump) = true := by decide +kernel
  have hget' : ((sealedByCreate.run 5).session.world.processes.get? ⟨1⟩).isSome = true := by
    decide +kernel
  obtain ⟨p, hp, hrunning⟩ := (Option.any_eq_true _ _).1 hget
  obtain ⟨p', hp'⟩ := Option.isSome_iff_exists.1 hget'
  rw [Bool.and_eq_true, decide_eq_true_eq] at hrunning
  obtain ⟨hphase, hflag⟩ := hrunning
  have hsealing := startup_sealed hm ⟨1⟩
  have hpast : p.phase ≠ .startup := hphase ▸ nofun
  constructor
  · obtain ⟨htold, -⟩ := (hsealing.writes _ _ _ _ p hwrite rfl hp).refused fun h => hpast h.2
    have herror : (sealedByCreate.run 4).session.world.writeError
        (⟨.main, .nothing, none⟩ : Context).thread p StartupFlag.doUndump.field =
          .startupSealed "do_undump" := by
      unfold writeError
      rw [hphase]
      rfl
    rw [htold, herror]
  · have hflags := (hsealing.sealed p hp hpast _ hrun p' hp').2 .doUndump
    have hvalue : StartupFlag.doUndump.get p = true := hflag
    rw [hflags.2 _ _ hread rfl, hvalue]

end Machine

end TieredState
