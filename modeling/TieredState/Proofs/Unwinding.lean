import TieredState.Proofs.BindingStates
import TieredState.Proofs.Nesting
import TieredState.Proofs.Teardown
import TieredState.Proofs.Trace

/-!
# Hooks that fail

An instance leaves its registry before the hooks for its destruction are called, and is marked dead
when they have run. A hook that fails is unwound, and the operation that called it with it: what was
still to be marked dead is not any more. `abandoned past` lists what has been left so in the past of a
run. It stays alive for good, and nothing can be done about it, since it is in no registry: `Stranded`.
Whatever else is in no registry any more is dead, or is being torn down: `dead_or_stranded`.
-/

namespace TieredState

namespace Session

/-- The instance is dead, nothing gives access to it, and no thread is bound to it. -/
structure Gone (s : Session) (id : InstanceId) : Prop where
  dead : s.world.isLive id = false
  refuses : s.Refuses id
  unbound : ∀ t tok, s.world.bindingState t tok ≠ .bound id

/-- An instance that is dead is gone for all calls. -/
theorem gone_of_dead {s : Session} {id : InstanceId} (h : s.world.isLive id = false) : s.Gone id where
  dead := h
  refuses := refuses_of_dead h
  unbound t tok hbound := by
    cases hb : (s.world.thread t).binding? tok with
    | none =>
      rw [World.bindingState_none hb] at hbound
      cases hbound
    | some b =>
      rw [World.bindingState_some hb] at hbound
      split at hbound
      · next hlive =>
        rw [BindingState.bound.inj hbound, h] at hlive
        cases hlive
      · cases hbound

end Session

namespace World

/-- The instance is alive, and no registry has it. Neither a destruction nor a shutdown comes to it. -/
structure Stranded (w : World) (id : InstanceId) : Prop where
  alive : w.isLive id = true
  unregistered : ∀ tok, w.registers tok id = false
  indestructible : ∀ t tok w', w.withdraw t tok id ≠ .ok w'

/-- What is out of the registries is in none. -/
theorem stranded_of_out {w : World} {out : List InstanceId} {id : InstanceId}
    (h : w.RegistrySound out) (hout : id ∈ out) : w.Stranded id where
  alive := h.outLive id hout
  unregistered tok := by
    refine Bool.eq_false_iff.2 fun hreg => ?_
    obtain ⟨p, hp, hmem⟩ := registers_iff.1 hreg
    exact (h.member tok p id hp hmem).1 hout
  indestructible t tok w' hw := by
    obtain ⟨p, hp, -, hmem, -⟩ := withdraw_ok hw
    exact (h.member tok p id (live_ok.1 hp).1 hmem).1 hout

end World

namespace Machine

open World Session

/-! ## What is left behind -/

/-- The next step fails and is unwound past a hook. -/
def unwinds (m : Machine) : Bool :=
  match m.next? with
  | some (_, .call none .fail) => unwindsHook m.stack
  | _ => false

/-- The next step changes no registry past every check. -/
def unedited (m : Machine) : Bool := !m.nextCall?.any (·.2.editsRegistry)

/-- The instances that the next step leaves to operations that are unwound, each with the process from
whose registry it was taken. -/
def abandons (m : Machine) : List (Token × InstanceId) :=
  if m.unwinds then m.charges.filter (· ∉ m.act.charges) else []

/-- The instances that have been left so. -/
def abandoned (past : List Machine) : List (Token × InstanceId) := past.flatMap abandons

/-- What the theory sees of a machine, with instances that are on nobody's hands any more. -/
def viewWith (m : Machine) (left : List (Token × InstanceId)) : View :=
  { m.view with charges := m.charges ++ left }

/-- New steps that are put in leave the view as it is. -/
theorem viewWith_redirect (m : Machine) (steps : List Step) (left : List (Token × InstanceId)) :
    (m.redirect steps).viewWith left = m.viewWith left :=
  congrArg (fun v : View => { v with charges := v.charges ++ left }) (view_redirect m steps)

variable {m m₀ : Machine} {v v' : View} {past : List Machine} {left : List (Token × InstanceId)}
  {ctx : Context} {id : InstanceId} {i : Instance} {p : Process}

/-- A step that edits no registry is orderly if it does not unwind a hook. -/
theorem orderly_of_unedited (h : m.unedited = true) (hunwinds : m.unwinds = false) :
    m.orderly = true := by
  unfold unedited nextCall? at h
  unfold unwinds at hunwinds
  unfold orderly
  split
  · next ctx on? c hnext =>
    rw [hnext] at h hunwinds
    have hedit : c.editsRegistry = false := by simpa using h
    rw [hedit]
    -- only a failing step on its own thread unwinds, and any other is orderly if it edits nothing
    by_cases hfail : c = .fail ∧ on? = none
    · obtain ⟨rfl, rfl⟩ := hfail
      dsimp only at hunwinds
      rw [hunwinds]
      rfl
    · have hnot : (decide (c = .fail) && on?.isNone) = false := by
        rw [Bool.and_eq_false_imp, decide_eq_true_eq]
        rintro rfl
        cases on? with
        | none => exact absurd ⟨rfl, rfl⟩ hfail
        | some _ => rfl
      rw [hnot]
      rfl
  · rfl

/-- What is unwound goes from the stack. -/
theorem scene_of_unwinds (h : m.unwinds = true) : ∃ ctx, m.act.scene =
    .of (unwind (m.opening ctx) m.stack).1 (unwind (m.opening ctx) m.stack).2 := by
  unfold unwinds at h
  split at h
  · next ctx hnext =>
    obtain ⟨m₁, hsession, -, hunwind, hact⟩ := act_of_next? hnext
    refine ⟨ctx, ?_⟩
    rw [hact]
    show m₁.fail.scene = _
    unfold fail
    rw [scene_deliver, hsession, hunwind]
    rfl
  · cases h

/-! ## Moves and unwinding -/

/-- A move has nothing to do with what is on nobody's hands. -/
theorem Move.frame (h : Move m v v') (left : List (Token × InstanceId)) :
    Move m { v with charges := v.charges ++ left } { v' with charges := v'.charges ++ left } := by
  obtain ⟨w, charges, uses, closing⟩ := v
  cases h with
  | calm hc => exact .calm hc
  | start c hc => exact .start c hc
  | endThread h => exact .endThread h
  | bind h => exact .bind h
  | release h hr => exact .release h hr
  | enroll t tok parent? => exact .enroll t tok parent?
  | withdraw hw => exact .withdraw hw
  | @beginShutdown t tok ids w' hw =>
    -- what a shutdown takes on comes in front of `left` too
    have hmove := Move.beginShutdown (m := m) (v := ⟨w, charges ++ left, uses, closing⟩) hw
    dsimp only at hmove ⊢
    rw [List.append_assoc]
    exact hmove
  | shutdown h hw => exact .shutdown h hw
  | tearDown h hcharges => exact .tearDown h (congrArg (· ++ left) hcharges)
  | endShutdown h hdown hcharges hclosing =>
    exact .endShutdown h hdown (congrArg (· ++ left) hcharges) hclosing
  | borrow hw => exact .borrow hw
  | endUses huses he =>
    exact Move.endUses (m := m) (v := ⟨w, charges ++ left, uses, closing⟩) huses he

/-- It does not matter in which order instances are on what hands, and that fewer processes are being
shut down. -/
theorem View.Sound.perm {w : World} {charges charges' : List (Token × InstanceId)}
    {uses : List (ThreadId × StorageId)} {closing closing' : List Token}
    (h : View.Sound ⟨w, charges, uses, closing⟩) (hperm : charges.Perm charges')
    (hsub : closing' ⊆ closing) : View.Sound ⟨w, charges', uses, closing'⟩ where
  world := ⟨h.world.registry.perm (hperm.map _), h.world.bindings⟩
  owners c hc := h.owners c (hperm.mem_iff.2 hc)
  closing tok htok := h.closing tok (hsub htok)

/-- Unwinding leaves the instances that the operations had on their hands to nobody. -/
theorem sound_of_unwinds (h : (m.viewWith left).Sound) (hunwinds : m.unwinds = true) :
    (m.act.viewWith (m.abandons ++ left)).Sound ∧
      Grows m.session.world m.act.session.world := by
  obtain ⟨ctx, hscene⟩ := scene_of_unwinds hunwinds
  have hview : m.act.view = _ := (view_scene m.act).symm.trans (congrArg Scene.view hscene)
  rw [Scene.view_of] at hview
  obtain ⟨gone, hgone⟩ := unwind_suffix (m.opening ctx) m.stack
  have hcharges : m.charges = gone.flatMap Frame.charges ++ m.act.charges := by
    have hact : m.act.charges = _ := congrArg View.charges hview
    rw [hact]
    unfold charges
    rw [← List.flatMap_append, hgone]
  -- no instance is on two hands, so what goes is what is not left on any
  have habandons : m.abandons = gone.flatMap Frame.charges := by
    have hnodup : ((gone.flatMap Frame.charges ++ m.act.charges) ++ left).Nodup := by
      have hout : ((m.charges ++ left).map (·.2)).Nodup := h.world.registry.outNodup
      rw [hcharges] at hout
      exact .of_map _ hout
    have hapart := (List.nodup_append.1 (List.nodup_append.1 hnodup).1).2.2
    unfold abandons
    rw [if_pos hunwinds, hcharges, List.filter_append]
    have hfirst : (gone.flatMap Frame.charges).filter (· ∉ m.act.charges) =
        gone.flatMap Frame.charges :=
      List.filter_eq_self.2 fun c hc => decide_eq_true fun hin => hapart c hc c hin rfl
    have hrest : m.act.charges.filter (· ∉ m.act.charges) = [] :=
      List.filter_eq_nil_iff.2 fun c hc hnot => of_decide_eq_true hnot hc
    rw [hfirst, hrest, List.append_nil]
  obtain ⟨ended, huses, hended⟩ := endUses_unwind (m.opening ctx) m.stack
  have hopening := Calm.refl m.session.world |>.trans (calm_setThread_thread m.session.world ctx.thread)
  have hmove := Move.endUses (m := m) (v := { m.viewWith left with world := (m.opening ctx).world })
    huses hended
  have hsound := hmove.sound (View.Sound.calm h hopening)
  have hworld : m.act.session.world = _ := congrArg View.world hview
  refine ⟨?_, ?_⟩
  · have hact : m.act.viewWith (m.abandons ++ left) = ⟨(unwind (m.opening ctx) m.stack).1.world,
        m.act.charges ++ (m.abandons ++ left), (unwind (m.opening ctx) m.stack).2.flatMap Frame.uses,
        (unwind (m.opening ctx) m.stack).2.flatMap Frame.closing⟩ := by
      unfold viewWith
      rw [hview]
    rw [hact]
    refine View.Sound.perm hsound ?_ ?_
    · show (m.charges ++ left).Perm (m.act.charges ++ (m.abandons ++ left))
      rw [hcharges, habandons, ← List.append_assoc]
      exact List.perm_append_comm.append_right left
    · intro tok htok
      obtain ⟨f, hf, hin⟩ := List.mem_flatMap.1 htok
      exact List.mem_flatMap.2 ⟨f, (unwind_suffix _ _).subset hf, hin⟩
  · rw [hworld]
    exact (Grows.calm hopening).trans hmove.grows

/-! ## Steps -/

/-- A step may leave instances behind, but keeps all else sound. -/
theorem left_act (h : (m.viewWith left).Sound) (hok : m.unedited = true) :
    (m.act.viewWith (m.abandons ++ left)).Sound ∧ Grows m.session.world m.act.session.world := by
  cases hunwinds : m.unwinds with
  | true => exact sound_of_unwinds h hunwinds
  | false =>
    obtain ⟨w, hc, hmove⟩ := act_move (orderly_of_unedited hok hunwinds)
    have hnone : m.abandons = [] := if_neg (Bool.eq_false_iff.1 hunwinds)
    rw [hnone]
    exact ⟨(hmove.frame left).sound (View.Sound.calm h hc), (Grows.calm hc).trans hmove.grows⟩

/-- A sweep drops what has been left to nobody when nothing refers to it. -/
theorem left_sweep (h : (m.viewWith left).Sound) (t : ThreadId) :
    ((m.sweep t).viewWith (left.filter fun c => (m.sweep t).session.world.isLive c.2)).Sound ∧
      Swept m.heldIds m.session.world (m.sweep t).session.world := by
  obtain ⟨hbindings, hswept⟩ := swept_sweep h.world t m.heldTokens m.heldIds
  have hgrows := hswept.grows
  refine ⟨⟨⟨?_, hbindings⟩, ?_, h.closing_of_grows hgrows⟩, hswept⟩
  · -- what operations have on their hands is kept
    have hheld : m.condemned.filter (m.sweep t).session.world.isLive = m.condemned := by
      refine List.filter_eq_self.2 fun id hid => ?_
      have hcondemned : id ∈ (m.viewWith left).condemned := by
        show id ∈ (m.charges ++ left).map (·.2)
        rw [List.map_append, map_charges]
        exact List.mem_append_left _ hid
      have hlive := h.world.registry.outLive id hcondemned
      unfold isLive at hlive ⊢
      rw [show (m.sweep t).session.world.instances.get? id = _ from
        hswept.kept id (.inl (m.condemned_subset_heldIds hid))]
      exact hlive
    have hout : (m.viewWith left).condemned.filter (m.sweep t).session.world.isLive =
        ((m.sweep t).viewWith
          (left.filter fun c => (m.sweep t).session.world.isLive c.2)).condemned := by
      show ((m.charges ++ left).map (·.2)).filter _ =
        (m.charges ++ left.filter fun c => (m.sweep t).session.world.isLive c.2).map (·.2)
      rw [List.map_append, List.map_append, List.filter_append, map_charges, hheld, List.filter_map]
      rfl
    rw [← hout]
    exact h.world.registry.swept hswept
  · intro c hc
    refine h.owners_of_grows hgrows c ?_
    rcases List.mem_append.1 hc with hc | hc
    · exact List.mem_append_left _ hc
    · exact List.mem_append_right _ (List.mem_filter.1 hc).1

/-! ## Runs -/

/-- The instances `left` are those which have been left to nobody in the past of a run and are there
still. -/
structure LeftBehind (past : List Machine) (m : Machine) (left : List (Token × InstanceId)) : Prop where
  sound : (m.viewWith left).Sound
  known : left ⊆ abandoned past
  lost : ∀ c ∈ abandoned past, c ∈ left ∨
    c.2.number < m.session.world.nextInstance ∧ m.session.world.instances.get? c.2 = none

/-- What was left behind stays so over one more step. -/
theorem leftBehind_step (h : LeftBehind past m left) (hok : m.unedited = true) :
    ∃ left', LeftBehind (m :: past) m.step left' := by
  obtain ⟨hact, hgrows⟩ := left_act h.sound hok
  obtain ⟨hstep, hswept⟩ := left_sweep hact m.actor
  refine ⟨_, hstep, ?_, ?_⟩
  · intro c hc
    refine List.mem_append.2 ((List.mem_append.1 (List.mem_filter.1 hc).1).imp_right ?_)
    exact fun hc => h.known hc
  · -- one that was there after the step proper is there after the sweep, or nowhere
    have hleft : ∀ c ∈ m.abandons ++ left,
        c ∈ (m.abandons ++ left).filter (fun c => m.step.session.world.isLive c.2) ∨
          c.2.number < m.step.session.world.nextInstance ∧
            m.step.session.world.instances.get? c.2 = none := by
      intro c hc
      have hcharged : c ∈ m.act.charges ++ (m.abandons ++ left) := List.mem_append_right _ hc
      obtain ⟨i, hi, halive⟩ := isLive_iff.1
        (hact.world.registry.outLive c.2 (List.mem_map.2 ⟨c, hcharged, rfl⟩))
      cases hstill : m.step.session.world.instances.get? c.2 with
      | some i' =>
        obtain rfl : i' = i := Option.some.inj ((hswept.instances c.2 i' hstill).symm.trans hi)
        exact .inl (List.mem_filter.2 ⟨hc, isLive_iff.2 ⟨i', hstill, halive⟩⟩)
      | none =>
        have hdrawn := (hact.owners c hcharged).1
        exact .inr ⟨Nat.lt_of_lt_of_le hdrawn (Nat.le_of_eq hswept.nextInstance.symm), rfl⟩
    intro c hc
    rcases List.mem_append.1 hc with hnew | hold
    · exact hleft c (List.mem_append_left _ hnew)
    · rcases h.lost c hold with hthere | ⟨hdrawn, hnone⟩
      · exact hleft c (List.mem_append_right _ hthere)
      · -- what is nowhere does not come back
        have hall := hgrows.trans hswept.grows
        refine .inr ⟨Nat.lt_of_lt_of_le hdrawn hall.nextInstance, ?_⟩
        refine Option.eq_none_iff_forall_ne_some.2 fun i' hi' => ?_
        obtain ⟨i, hi, -⟩ := hall.instances c.2 i' hi' hdrawn
        rw [hnone] at hi
        cases hi

/-- A run that changes no registry past every check changes the owner of no instance. -/
theorem grows_of_unedited {left : List (Token × InstanceId)} (h : (m.viewWith left).Sound)
    (hrun : Run unedited m m') :
    (∃ left', (m'.viewWith left').Sound) ∧ Grows m.session.world m'.session.world := by
  induction hrun with
  | refl => exact ⟨⟨left, h⟩, .refl _⟩
  | @step m' _ hok ih =>
    obtain ⟨⟨left', h'⟩, hgrows⟩ := ih
    obtain ⟨hact, hgrows'⟩ := left_act h' hok
    obtain ⟨hstep, hswept⟩ := left_sweep hact m'.actor
    exact ⟨⟨_, hstep⟩, (hgrows.trans hgrows').trans hswept.grows⟩
  | @redirect m' _ steps ih =>
    obtain ⟨⟨left', h'⟩, hgrows⟩ := ih
    rw [world_redirect]
    exact ⟨⟨left', (viewWith_redirect m' steps left').symm ▸ h'⟩, hgrows⟩

/-- At every point of every unedited run it is known what was left behind. -/
theorem leftBehind_of_history (hm : History unedited past m) : ∃ left, LeftBehind past m left := by
  obtain ⟨files, environment, fieldCount, script, htrace⟩ := hm
  induction htrace with
  | start =>
    refine ⟨[], ?_, List.nil_subset _, fun _ hc => absurd hc List.not_mem_nil⟩
    exact ⟨.empty, fun _ hmem => absurd hmem List.not_mem_nil,
      fun _ hmem => absurd hmem List.not_mem_nil⟩
  | step _ hok ih =>
    obtain ⟨left, h⟩ := ih
    exact leftBehind_step h hok
  | @redirect past m _ steps ih =>
    obtain ⟨left, h⟩ := ih
    refine ⟨left, (viewWith_redirect m steps left).symm ▸ h.sound, h.known, ?_⟩
    rw [world_redirect]
    exact h.lost

/-- At every point of every run that changes no registry past every check, whatever hooks fail: an
instance that is not in the registry of its process any more, and that no operation under way is about
to mark dead, is dead and gone, unless an operation has left it when it was unwound. Then it is alive
and stranded. -/
theorem dead_or_stranded (hm : History unedited past m)
    (hi : m.session.world.instances.get? id = some i)
    (hp : m.session.world.processes.get? i.owner = some p) (hout : id ∉ p.registry.members)
    (hdone : (i.owner, id) ∉ m.charges) :
    ((i.owner, id) ∉ abandoned past → m.session.Gone id) ∧
      ((i.owner, id) ∈ abandoned past → m.session.world.Stranded id) := by
  obtain ⟨left, h⟩ := leftBehind_of_history hm
  constructor
  · intro hnot
    refine gone_of_dead (Bool.eq_false_iff.2 fun hlive => ?_)
    obtain ⟨j, hj, halive⟩ := isLive_iff.1 hlive
    obtain rfl : j = i := Option.some.inj (hj.symm.trans hi)
    -- what is alive and in no registry is on some hands, or was left
    obtain ⟨⟨tok, _⟩, hc, rfl⟩ := List.mem_map.1
      ((h.sound.world.registry.housed id j p hj halive hp).resolve_left hout)
    have howner := (h.sound.owners _ hc).2 j hj
    dsimp only at howner hdone hnot
    subst howner
    rcases List.mem_append.1 hc with hc | hc
    · exact hdone hc
    · exact hnot (h.known hc)
  · intro hleft
    rcases h.lost _ hleft with hthere | ⟨-, hnone⟩
    · exact stranded_of_out h.sound.world.registry
        (List.mem_map.2 ⟨_, List.mem_append_right _ hthere, rfl⟩)
    · rw [hi] at hnone
      cases hnone

/-- A program with a hook that fails when an instance is destroyed. -/
def failingHook : Machine :=
  start default default 0 [
    .call none (.start "p" none),
    .call none (.process "p" (.create (some "i"))),
    .register none ⟨some "p", .destroyed, none, "d", 1⟩ [.call none .fail],
    .closure none .attempt [.call none (.process "p" (.destroy "i"))]]

/-- The instance that it was called for cannot be destroyed any more. -/
theorem stranded_by_failing_hook : (failingHook.run 8).session.world.Stranded ⟨1⟩ := by
  have hm : History unedited (trail 8 failingHook []) (failingHook.run 8) := .of_run (by decide +kernel)
  have howner : ((failingHook.run 8).session.world.instances.get? ⟨1⟩).map (·.owner) = some ⟨1⟩ := by
    decide +kernel
  have hmembers : ((failingHook.run 8).session.world.processes.get? ⟨1⟩).map
      (·.registry.members) = some [] := by decide +kernel
  obtain ⟨i, hi, howner⟩ := Option.map_eq_some_iff.1 howner
  obtain ⟨p, hp, hmembers⟩ := Option.map_eq_some_iff.1 hmembers
  have hout : (⟨1⟩ : InstanceId) ∉ p.registry.members := by
    rw [hmembers]
    exact List.not_mem_nil
  have hdone : (i.owner, (⟨1⟩ : InstanceId)) ∉ (failingHook.run 8).charges := by
    rw [howner]
    decide +kernel
  have hleft : (i.owner, (⟨1⟩ : InstanceId)) ∈ abandoned (trail 8 failingHook []) := by
    rw [howner]
    decide +kernel
  exact (dead_or_stranded hm hi (howner ▸ hp) hout hdone).2 hleft

/-- It is not so that what is in no registry any more is dead when nothing is under way. -/
theorem alive_after_failure :
    ¬ ∀ (past : List Machine) (m : Machine) (id : InstanceId) (i : Instance) (p : Process),
      History unedited past m → m.stack = [] → m.session.world.instances.get? id = some i →
      m.session.world.processes.get? i.owner = some p → id ∉ p.registry.members →
      i.alive = false := by
  intro hall
  have hm : History unedited (trail 8 failingHook []) (failingHook.run 8) := .of_run (by decide +kernel)
  have hinstance : ((failingHook.run 8).session.world.instances.get? ⟨1⟩).map
      (fun i => (i.owner, i.alive)) = some (⟨1⟩, true) := by decide +kernel
  have hmembers : ((failingHook.run 8).session.world.processes.get? ⟨1⟩).map
      (·.registry.members) = some [] := by decide +kernel
  obtain ⟨i, hi, hfields⟩ := Option.map_eq_some_iff.1 hinstance
  obtain ⟨p, hp, hmembers⟩ := Option.map_eq_some_iff.1 hmembers
  obtain ⟨howner, halive⟩ := Prod.mk.inj hfields
  have hout : (⟨1⟩ : InstanceId) ∉ p.registry.members := by
    rw [hmembers]
    exact List.not_mem_nil
  have hstack : (failingHook.run 8).stack = [] := by rfl
  rw [hall _ _ _ i p hm hstack hi (howner ▸ hp) hout] at halive
  cases halive

end Machine

end TieredState
