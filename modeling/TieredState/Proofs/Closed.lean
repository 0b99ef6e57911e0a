import TieredState.Proofs.BindingStates
import TieredState.Proofs.Episodes
import TieredState.Proofs.Phases
import TieredState.Proofs.Slots

/-!
# Processes that are shut down

A process that is shut down has no members and gets none, and no thread binds itself under it. So what
threads are bound to under it becomes less and less, and what of it is live still is being torn down
by an operation that was under way already.

* `Closed` — the process is shut down. `closed_of_run` says that it stays so, and that threads only
  lose bindings under it.
* `condemned_of_run` — an instance whose teardown is under way stays condemned for as long as it is
  live.
-/

namespace TieredState

namespace World

variable {w w' w'' : World} {t : ThreadId} {tok tok' : Token} {id : InstanceId}

/-! ## Closed processes -/

/-- The process was started and shut down. If it is there still, it has no members. -/
structure Closed (w : World) (tok : Token) : Prop where
  drawn : tok.number < w.nextToken
  processes : ∀ p, w.processes.get? tok = some p → p.phase = .shutDown ∧ p.registry.members = []

namespace Closed

/-- A process that is closed is not live. -/
theorem not_live (h : w.Closed tok) (p : Process) : w.live tok ≠ .ok p := by
  intro hp
  obtain ⟨hget, hphase⟩ := live_ok.1 hp
  exact hphase (h.processes p hget).1

/-- A process that is closed has no instance registered. -/
theorem not_registers (h : w.Closed tok) (id : InstanceId) : w.registers tok id = false := by
  refine Bool.eq_false_iff.2 fun hreg => ?_
  obtain ⟨p, hp, hmem⟩ := registers_iff.1 hreg
  rw [(h.processes p hp).2] at hmem
  cases hmem

/-- A process that is closed stays so in whatever course processes take. -/
theorem courses (h : w.Closed tok) (hc : Courses w w') : w'.Closed tok := by
  refine ⟨Nat.lt_of_lt_of_le h.drawn hc.nextToken, fun p' hp' => ?_⟩
  rcases hc.processes tok p' hp' with ⟨p, hp, hpasses⟩ | ⟨hnew, -⟩
  · obtain ⟨hdown, hnone⟩ := h.processes p hp
    cases hpasses with
    | stays hphase hmem => exact ⟨hphase.trans hdown, List.subset_nil.1 (hnone ▸ hmem)⟩
    | registers hlive => exact absurd hdown hlive
    | shutsDown hlive => exact absurd hdown hlive
  · exact absurd h.drawn (Nat.not_lt.2 hnew)

end Closed

/-- A process whose shutdown begins is closed at once. -/
theorem closed_of_beginShutdown {out ids : List InstanceId} (h : RegistrySound w out)
    (hw : w.beginShutdown t tok = .ok (ids, w')) : w'.Closed tok := by
  obtain ⟨p, hp, -, rfl⟩ := beginShutdown_ok hw
  have hget := (live_ok.1 hp).1
  refine ⟨h.tokenDrawn tok p hget, fun p' hp' => ?_⟩
  rw [get?_modifyProcess, if_pos rfl, hget] at hp'
  obtain rfl := Option.some.inj hp'
  exact ⟨rfl, rfl⟩

/-! ## Bindings that are only lost -/

/-- What threads are bound to under the process they were bound to before. -/
def Unbinds (tok : Token) (w w' : World) : Prop :=
  ∀ t b, (w'.thread t).binding? tok = some b → (w.thread t).binding? tok = some b

namespace Unbinds

/-- What stays bound as it was is bound to nothing new. -/
theorem of_eq (h : ∀ t, (w'.thread t).binding? tok = (w.thread t).binding? tok) :
    Unbinds tok w w' := fun t _ hb => (h t).symm.trans hb

theorem refl (tok : Token) (w : World) : Unbinds tok w w := fun _ _ hb => hb

/-- What is bound to nothing new over two changes is so over both. -/
theorem trans (h : Unbinds tok w w') (h' : Unbinds tok w' w'') : Unbinds tok w w'' :=
  fun t b hb => h t b (h' t b hb)

theorem calm (h : Calm w w') : Unbinds tok w w' := of_eq fun t => h.bindings t tok

/-- It is enough to look at the thread that changes. -/
theorem of_local (hl : Local t w w')
    (h : ∀ b, (w'.thread t).binding? tok = some b → (w.thread t).binding? tok = some b) :
    Unbinds tok w w' := by
  intro t' b hb
  by_cases heq : t' = t
  · rw [heq] at hb ⊢
    exact h b hb
  · rwa [hl.others t' heq] at hb

/-- The end of a binding binds nothing. -/
theorem unbind (h : UnbindSpec w t tok' w') : Unbinds tok w w' := by
  refine of_local h.frame fun b hb => ?_
  rw [h.bindings] at hb
  split at hb
  · cases hb
  · exact hb

/-- Nothing is bound under a process that is shut down. -/
theorem bind (h : w.Closed tok) (t : ThreadId) (tok' : Token) (id : InstanceId) :
    Unbinds tok w (w.bind t tok' id).2 := by
  unfold World.bind
  split
  · exact refl tok w
  · next p hp =>
    have hne : tok ≠ tok' := by
      rintro rfl
      exact h.not_live p hp
    split
    · exact refl tok w
    · split
      · exact refl tok w
      · have hspec := bindThread_spec w t tok' id
        refine of_local hspec.frame fun b hb => ?_
        rw [hspec.others tok hne] at hb
        split at hb
        · cases hb
        · exact hb

theorem tearDown (w : World) (t : ThreadId) (tok' : Token) (id : InstanceId) :
    Unbinds tok w (w.tearDown t tok' id) := by
  rcases tearDown_cases w t tok' id with ⟨heq, -⟩ | ⟨-, hspec⟩
  · rw [heq]
    exact of_eq fun _ => rfl
  · have hunbind : Unbinds tok (w.marked id) (w.tearDown t tok' id) := unbind hspec
    exact hunbind

theorem releaseKey (w : World) (t : ThreadId) (tok' : Token) :
    Unbinds tok w (w.releaseKey t tok') :=
  fun t' => (leaves_releaseKey w t tok' t' tok).bindings

theorem endUses {ended : List (ThreadId × StorageId)} (h : Machine.EndUses w ended w') :
    Unbinds tok w w' := by
  induction h with
  | done hc => exact calm hc
  | calm hc _ ih => exact (calm hc).trans ih
  | @storage w w' t s uses _ ih =>
    have hspec := endBorrow_spec w t s
    exact (of_local hspec.frame fun b hb => (hspec.bindings tok).symm.trans hb).trans ih

/-- What is not bound stays so. -/
theorem unbound (h : Unbinds tok w w') (hnone : w.bindingState t tok = .unbound) :
    w'.bindingState t tok = .unbound := by
  cases hb : (w'.thread t).binding? tok with
  | none => exact bindingState_none hb
  | some b =>
    rw [bindingState_some (h t b hb)] at hnone
    split at hnone <;> cases hnone

end Unbinds

/-- Tearing an instance down leaves it dead. -/
theorem isLive_tearDown_self (w : World) (t : ThreadId) (tok : Token) (id : InstanceId) :
    (w.tearDown t tok id).isLive id = false := by
  have hmarked : (w.marked id).isLive id = false := by
    rw [isLive_marked]
    simp
  rcases tearDown_cases w t tok id with ⟨heq, -⟩ | ⟨-, hspec⟩
  · rw [heq]
    exact hmarked
  · rw [hspec.frame.isLive]
    exact hmarked

end World

namespace Machine

open World

variable {m m' : Machine} {v v' : View} {tok : Token} {id : InstanceId}

/-! ## Steps -/

/-- No move binds a thread under a closed process. -/
theorem Move.unbinds (h : Move m v v') (hclosed : v.world.Closed tok) :
    Unbinds tok v.world v'.world := by
  -- only `bind` could bind a thread, and it asks whether the process is live
  cases h with
  | calm hc => exact .calm hc
  | start c hc =>
    have hstart : Unbinds tok v.world (v.world.start c).2 := .of_eq fun _ => rfl
    exact hstart.trans (.calm hc)
  | @endThread t _ =>
    refine .of_local (local_withoutThread _ t) fun b hb => ?_
    rw [thread_withoutThread, if_pos rfl] at hb
    cases hb
  | @bind t tok' id _ => exact .bind hclosed t tok' id
  | release _ hr =>
    obtain ⟨p, -, hu⟩ := bind_eq_ok.1 hr
    exact .unbind (unbindThread_ok hu)
  | enroll t tok' parent? =>
    refine .of_eq fun t' => ?_
    rcases enroll_cases v.world t tok' parent? with ⟨e, heq⟩ | ⟨e, heq⟩ | ⟨p, -, -, heq⟩ <;>
      rw [heq] <;> rfl
  | withdraw hw =>
    obtain ⟨p, -, -, -, rfl⟩ := withdraw_ok hw
    exact .of_eq fun _ => rfl
  | beginShutdown hw =>
    obtain ⟨p, -, -, rfl⟩ := beginShutdown_ok hw
    exact .of_eq fun _ => rfl
  | shutdown _ hw =>
    obtain ⟨p, -, -, rfl⟩ := beginShutdown_ok hw
    exact (Unbinds.of_eq fun _ => rfl).trans (.releaseKey _ _ _)
  | tearDown _ _ => exact .tearDown _ _ _ _
  | endShutdown _ _ _ _ => exact (Unbinds.tearDown _ _ _ _).trans (.releaseKey _ _ _)
  | @borrow t handle w hw =>
    have hspec := borrow_ok hw
    exact .of_local hspec.frame fun b hb => (hspec.bindings tok).symm.trans hb
  | endUses _ he => exact .endUses he

/-- What an operation under way is to tear down stays with it until it is dead. -/
theorem Move.charges (h : Move m v v') {c : Token × InstanceId} (hc : c ∈ v.charges) :
    c ∈ v'.charges ∨ v'.world.isLive c.2 = false := by
  cases h with
  | withdraw _ => exact .inl (List.mem_cons_of_mem _ hc)
  | beginShutdown _ => exact .inl (List.mem_append_right _ hc)
  | @tearDown t tok id _ charges hcharges =>
    rw [hcharges] at hc
    rcases List.mem_cons.1 hc with rfl | hc
    · exact .inr (isLive_tearDown_self _ _ _ _)
    · exact .inl hc
  | @endShutdown t tok id _ _ charges hcharges closing _ =>
    rw [hcharges] at hc
    rcases List.mem_cons.1 hc with rfl | hc
    · exact .inr (isLive_tearDown_self v.world t tok id)
    · exact .inl hc
  | calm | start | endThread | bind | release | enroll | shutdown | borrow | endUses => exact .inl hc

theorem unbinds_sweep (m : Machine) (tok : Token) :
    Unbinds tok m.act.session.world m.step.session.world :=
  fun t => (leaves_sweep m.act.session m.actor m.act.heldTokens m.act.heldIds t tok).bindings

/-- A closed process stays closed over a step, and no thread is bound under it. -/
theorem closed_step (hok : m.orderly = true) (h : m.session.world.Closed tok) :
    m.step.session.world.Closed tok ∧ Unbinds tok m.session.world m.step.session.world := by
  obtain ⟨w, hc, hmove⟩ := act_move hok
  have hclosed : w.Closed tok := h.courses (.of_rests (.calm hc))
  refine ⟨h.courses (courses_step fun _ _ => editsRegistry_of_orderly hok), ?_⟩
  exact ((Unbinds.calm hc).trans (hmove.unbinds hclosed)).trans (unbinds_sweep m tok)

/-- What is condemned is dead after the step, or still condemned. -/
theorem condemned_step (hok : m.orderly = true) (hid : id ∈ m.condemned) :
    id ∈ m.step.condemned ∨ m.step.session.world.isLive id = false := by
  obtain ⟨w, hc, hmove⟩ := act_move hok
  rw [← map_charges] at hid
  obtain ⟨c, hmem, rfl⟩ := List.mem_map.1 hid
  rcases hmove.charges (c := c) hmem with hstays | hdead
  · left
    show c.2 ∈ m.act.condemned
    rw [← map_charges]
    exact List.mem_map_of_mem hstays
  · right
    refine Bool.eq_false_iff.2 fun hlive => ?_
    have hbefore := (sweep_sub m.act.session m.actor m.act.heldTokens m.act.heldIds).1 c.2 hlive
    have hcontra := hbefore.symm.trans hdead
    cases hcontra

/-- What a thread is bound to under a process that is shut down is dead, or an operation under way is
to tear it down. -/
theorem condemned_of_bound (hs : m.Sound) (hclosed : m.session.world.Closed tok)
    (hthere : ∃ p, m.session.world.processes.get? tok = some p) {t : ThreadId} {b : Binding}
    (hb : (m.session.world.thread t).binding? tok = some b)
    (hlive : m.session.world.isLive b.target = true) : b.target ∈ m.condemned := by
  obtain ⟨p, hp⟩ := hthere
  obtain ⟨i, hi, halive⟩ := isLive_iff.1 hlive
  obtain rfl := (hs.bindings.bound t tok b hb).2 i hi
  rcases hs.registry.housed b.target i p hi halive hp with hmem | hcondemned
  · rw [(hclosed.processes p hp).2] at hmem
    cases hmem
  · exact hcondemned

/-! ## Runs -/

/-- A closed process stays closed in every run, and no thread is bound under it. -/
theorem closed_of_run (h : m.session.world.Closed tok) (hrun : Run orderly m m') :
    m'.session.world.Closed tok ∧ Unbinds tok m.session.world m'.session.world := by
  induction hrun with
  | refl => exact ⟨h, .refl tok _⟩
  | step _ hok ih =>
    obtain ⟨hclosed, hunbinds⟩ := closed_step hok ih.1
    exact ⟨hclosed, ih.2.trans hunbinds⟩
  | redirect _ steps ih =>
    rw [world_redirect]
    exact ih

@[simp] theorem condemned_redirect (m : Machine) (steps : List Step) :
    (m.redirect steps).condemned = m.condemned := by
  rw [← map_charges, ← map_charges]
  exact congrArg (·.charges.map (·.2)) (view_redirect m steps)

/-- What is condemned stays so for as long as it is live. -/
theorem condemned_of_run (hs : m.Sound) (hrun : Run orderly m m') (hid : id ∈ m.condemned)
    (hlive : m'.session.world.isLive id = true) : id ∈ m'.condemned := by
  have hdrawn := hs.registry.drawn_of_live (hs.registry.outLive id hid)
  induction hrun with
  | refl => exact hid
  | @step m₁ hrun hok ih =>
    obtain ⟨hs₁, hgrows⟩ := sound_of_run hs hrun
    -- what is live after the step was live before it
    have hbefore : m₁.session.world.isLive id = true := by
      by_contra hdead
      have hdead' := (sound_step hs₁ hok).2.not_live (Nat.lt_of_lt_of_le hdrawn hgrows.nextInstance)
        (Bool.eq_false_iff.2 hdead)
      rw [hlive] at hdead'
      cases hdead'
    rcases condemned_step hok (ih hbefore) with hstays | hdead
    · exact hstays
    · rw [hlive] at hdead
      cases hdead
  | redirect _ steps ih =>
    rw [condemned_redirect]
    rw [world_redirect] at hlive
    exact ih hlive

/-- Under a process that is shut down no thread obtains a handle. -/
theorem not_obtains_of_closed (h : m.session.world.Closed tok) (t : ThreadId) (handle : Handle) :
    ¬ m.Obtains tok handle t := by
  intro hobtains
  cases hobtains with
  | bind hbinds =>
    obtain ⟨-, -, -, hbind⟩ := hbinds
    obtain ⟨⟨p, hp⟩, -⟩ := bind_ok hbind
    exact h.not_live p hp
  | currentThread _ _ hcurrent =>
    obtain ⟨⟨p, hp⟩, -⟩ := currentThread_ok hcurrent
    exact h.not_live p hp

end Machine

end TieredState
