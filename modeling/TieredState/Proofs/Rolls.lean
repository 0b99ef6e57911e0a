import TieredState.Proofs.Confinement
import TieredState.Proofs.Phases
import TieredState.Proofs.Unwinding

/-!
# Who joins a process and who leaves it

An instance joins a process when a creation has registered it, and leaves when a destruction takes it out
of the registry; both before any hook is called. Here is what a step of any kind does to the registry of a
process that is not shut down after it, also a step that unwinds hooks.

* `Registry.Changes` — the registry stays as it is, or one instance joins, or one leaves.
* `joins?`, `destroys?` — the instance that the next step registers, or takes out to destroy it. Both are
  told from the operation that the step begins, and not from the registry.
* `enlists_act` — the registries after a step are those before it, changed so.
-/

namespace TieredState

namespace Registry

/-- What is done to a registry: `joined?` is registered, under the number `n`, and `left?` is taken out. -/
inductive Changes (n : Nat) (r : Registry) : Option InstanceId → Option InstanceId → Registry → Prop
  | stays : Changes n r none none r
  | joins : Changes n r (some ⟨n⟩) none (r.insert ⟨n⟩)
  | leaves {id : InstanceId} (hmem : id ∈ r.members) : Changes n r none (some id) (r.remove id)

end Registry

namespace Dispatch

/-- The instance that was registered with the process for the dispatch to begin. -/
def joins? (d : Dispatch) (tok : Token) : Option InstanceId :=
  match d.task with
  | .create _ => if d.process = tok then some d.target else none
  | .destroy | .shutdown _ _ => none

/-- The instance that was taken from the registry of the process to be destroyed. -/
def destroys? (d : Dispatch) (tok : Token) : Option InstanceId :=
  match d.task with
  | .destroy => if d.process = tok then some d.target else none
  | .create _ | .shutdown _ _ => none

end Dispatch

namespace World

variable {w w₁ w₂ w' : World} {t : ThreadId} {tok : Token} {id : InstanceId}
  {joined left : Token → Option InstanceId}

/-- What happens to the registries of the processes that are not shut down: `joined` tells for each the
instance that is registered with it, and `left` the one that is taken out. -/
structure Enlists (w w' : World) (joined left : Token → Option InstanceId) : Prop where
  nextInstance : w.nextInstance ≤ w'.nextInstance
  nextToken : w.nextToken ≤ w'.nextToken
  /-- The registry of a process is changed, or the process is new. -/
  processes : ∀ tok p', w'.live tok = .ok p' →
    (∃ p, w.live tok = .ok p ∧
      p.registry.Changes w.nextInstance (joined tok) (left tok) p'.registry) ∨
    w.nextToken ≤ tok.number ∧ p'.registry = {}
  /-- What joins has got its identity for it. -/
  joins : ∀ tok id, joined tok = some id →
    id = ⟨w.nextInstance⟩ ∧ w.nextInstance < w'.nextInstance ∧ ∃ p, w.live tok = .ok p
  leaves : ∀ tok id, left tok = some id → ∃ p, w.live tok = .ok p ∧ id ∈ p.registry.members

/-- A process that is not shut down was not before, where nothing happens to phases. -/
theorem Rests.live {p' : Process} (h : Rests w w') (hp' : w'.live tok = .ok p') :
    ∃ p, w.live tok = .ok p ∧ p.registry = p'.registry := by
  obtain ⟨hget, hphase⟩ := live_ok.1 hp'
  obtain ⟨p, hp, hsame, hreg⟩ := h.processes tok p' hget
  exact ⟨p, live_ok.2 ⟨hp, hsame ▸ hphase⟩, hreg⟩

/-- Of a process that is changed, as long as the change leaves it as live as it was. -/
theorem live_modifyProcess {f : Process → Process} {tok' : Token} {p' : Process}
    (h : (w.modifyProcess tok f).live tok' = .ok p') :
    (tok' = tok ∧ ∃ p, w.processes.get? tok = some p ∧ p' = f p ∧ (f p).phase ≠ .shutDown) ∨
      tok' ≠ tok ∧ w.live tok' = .ok p' := by
  obtain ⟨hget, hphase⟩ := live_ok.1 h
  rcases (get?_modifyProcess_eq_some _ _ _).1 hget with ⟨htok, p, hp, rfl⟩ | ⟨hne, hp⟩
  · exact .inl ⟨htok, p, hp, rfl, hphase⟩
  · exact .inr ⟨hne, live_ok.2 ⟨hp, hphase⟩⟩

namespace Enlists

/-- Where processes rest, nothing is registered and nothing is taken out. -/
theorem of_rests (h : Rests w w') : Enlists w w' (fun _ => none) (fun _ => none) where
  nextInstance := Nat.le_of_eq h.nextInstance.symm
  nextToken := Nat.le_of_eq h.nextToken.symm
  processes tok p' hp' := by
    obtain ⟨p, hp, hreg⟩ := h.live hp'
    exact .inl ⟨p, hp, hreg ▸ .stays⟩
  joins _ _ hjoined := by cases hjoined
  leaves _ _ hleft := by cases hleft

/-- Nothing happens to registries before. -/
theorem after (h : Enlists w₁ w' joined left) (hbefore : w₁.nextInstance = w.nextInstance ∧
    w₁.nextToken = w.nextToken ∧ w₁.processes = w.processes) : Enlists w w' joined left := by
  obtain ⟨hnext, htoken, hprocesses⟩ := hbefore
  have hlive : ∀ tok, w₁.live tok = w.live tok := fun tok => by
    unfold live
    rw [hprocesses]
  obtain ⟨hle, hle', hproc, hjoins, hleaves⟩ := h
  simp only [hnext, htoken, hlive] at hle hle' hproc hjoins hleaves
  exact ⟨hle, hle', hproc, hjoins, hleaves⟩

/-- Nothing happens to registries afterwards. -/
theorem before (h : Enlists w w₁ joined left) (hafter : Rests w₁ w') : Enlists w w' joined left where
  nextInstance := hafter.nextInstance ▸ h.nextInstance
  nextToken := hafter.nextToken ▸ h.nextToken
  processes tok p' hp' := by
    obtain ⟨p₁, hp₁, hreg⟩ := hafter.live hp'
    exact hreg ▸ h.processes tok p₁ hp₁
  joins tok id hjoined := hafter.nextInstance ▸ h.joins tok id hjoined
  leaves := h.leaves

theorem start (w : World) (c : Config) :
    Enlists w (w.start c).2 (fun _ => none) (fun _ => none) where
  nextInstance := Nat.le_refl _
  nextToken := Nat.le_succ _
  processes tok p' hp' := by
    obtain ⟨hget, hphase⟩ := live_ok.1 hp'
    rw [get?_start] at hget
    split at hget
    · next heq =>
      obtain rfl := Option.some.inj hget
      rw [heq]
      exact .inr ⟨Nat.le_refl _, rfl⟩
    · exact .inl ⟨p', live_ok.2 ⟨hget, hphase⟩, .stays⟩
  joins _ _ hjoined := by cases hjoined
  leaves _ _ hleft := by cases hleft

theorem draw (w : World) : Enlists w w.draw (fun _ => none) (fun _ => none) where
  nextInstance := Nat.le_succ _
  nextToken := Nat.le_refl _
  processes _ p' hp' := .inl ⟨p', hp', .stays⟩
  joins _ _ hjoined := by cases hjoined
  leaves _ _ hleft := by cases hleft

/-- A process that is shut down is left out of account. -/
theorem beginShutdown {ids : List InstanceId} (h : w.beginShutdown t tok = .ok (ids, w')) :
    Enlists w w' (fun _ => none) (fun _ => none) := by
  obtain ⟨p, -, -, rfl⟩ := beginShutdown_ok h
  refine ⟨Nat.le_refl _, Nat.le_refl _, fun tok' p' hp' => ?_, fun _ _ h => (by cases h),
    fun _ _ h => (by cases h)⟩
  rcases live_modifyProcess hp' with ⟨-, q, -, -, hphase⟩ | ⟨-, hp'⟩
  · exact absurd rfl hphase
  · exact .inl ⟨p', hp', .stays⟩

/-- The instance that is enrolled is registered with its process, and with no other. -/
theorem enroll {parent? : Option InstanceId} (h : w.enroll t tok parent? = (.ok id, w')) :
    Enlists w w' (fun tok' => if tok = tok' then some id else none) (fun _ => none) := by
  rcases enroll_cases w t tok parent? with ⟨e, heq⟩ | ⟨e, heq⟩ | ⟨p, hlive, -, heq⟩
  · rw [heq] at h
    cases h
  · rw [heq] at h
    cases h
  · obtain ⟨hid, rfl⟩ := Prod.mk.inj (heq.symm.trans h)
    obtain rfl := Except.ok.inj hid
    refine ⟨Nat.le_succ _, Nat.le_refl _, fun tok' p' hp' => .inl ?_, fun tok' id' hjoined => ?_,
      fun _ _ hleft => (by cases hleft)⟩
    · have hp'' : (w.modifyProcess tok (·.register ⟨w.nextInstance⟩)).live tok' = .ok p' := hp'
      rcases live_modifyProcess hp'' with ⟨rfl, q, hq, rfl, -⟩ | ⟨hne, hp'⟩
      · obtain rfl := Option.some.inj (hq.symm.trans (live_ok.1 hlive).1)
        exact ⟨q, hlive, (if_pos rfl).symm ▸ .joins⟩
      · exact ⟨p', hp', (if_neg (Ne.symm hne)).symm ▸ .stays⟩
    · obtain ⟨rfl, hid'⟩ := Option.ite_none_right_eq_some.1 hjoined
      exact ⟨(Option.some.inj hid').symm, Nat.lt_succ_self _, p, hlive⟩

/-- The instance that is withdrawn is taken out of its process, and of no other. -/
theorem withdraw (h : w.withdraw t tok id = .ok w') :
    Enlists w w' (fun _ => none) (fun tok' => if tok = tok' then some id else none) := by
  obtain ⟨p, hlive, -, hmem, rfl⟩ := withdraw_ok h
  refine ⟨Nat.le_refl _, Nat.le_refl _, fun tok' p' hp' => .inl ?_, fun _ _ h => (by cases h),
    fun tok' id' hleft => ?_⟩
  · rcases live_modifyProcess hp' with ⟨rfl, q, hq, rfl, -⟩ | ⟨hne, hp'⟩
    · obtain rfl := Option.some.inj (hq.symm.trans (live_ok.1 hlive).1)
      exact ⟨q, hlive, (if_pos rfl).symm ▸ .leaves hmem⟩
    · exact ⟨p', hp', (if_neg (Ne.symm hne)).symm ▸ .stays⟩
  · obtain ⟨rfl, hid'⟩ := Option.ite_none_right_eq_some.1 hleft
    exact ⟨p, hlive, Option.some.inj hid' ▸ hmem⟩

end Enlists

end World

namespace Session

open World

variable {s s' : Session} {ctx : Context} {t : ThreadId} {tok : Token}

/-- A call that is done at once neither registers an instance nor destroys one, unless it changes a
registry past every check. -/
theorem Served.enlists {c : Call} {o : Outcome} (h : s.Served ctx c o s')
    (hedit : c.editsRegistry = false) :
    Enlists s.world s'.world (fun _ => none) (fun _ => none) := by
  cases h with
  | plain _ =>
    rcases plainCall_cases s ctx hedit with hcalm | ⟨config, hcalm⟩ | ⟨name, rfl, hworld⟩
    · exact .of_rests (.calm hcalm)
    · exact (Enlists.start s.world config).before (.calm hcalm)
    · rw [hworld]
      exact .of_rests (.of_local (local_withoutThread _ _))
  | @process p c tok q hproc hq hc =>
    rcases plainProcessCall_cases s ctx tok q c with
      hcalm | ⟨i, as?, id, rfl, -, hworld⟩ | ⟨id?, rfl, hr⟩
    · exact .of_rests (.calm hcalm)
    · rw [hworld]
      exact .of_rests (.of_local (local_bind _ _ _ _))
    · exact .of_rests (.of_local (local_release hr))
  | refused f => exact .of_rests (.refl _)
  | drawn _ _ => exact .draw _
  | shutdown hproc hbegin => exact (Enlists.beginShutdown hbegin).before (.releaseKey _ _ _)

/-- What joins and what leaves can be told from the operation that begins. -/
theorem Begins.enlists {d : Dispatch} (h : s.Begins t tok d s') :
    Enlists s.world s'.world d.joins? d.destroys? := by
  cases h with
  | create as? henroll => exact .enroll henroll
  | destroy hwithdraw => exact .withdraw hwithdraw
  | shutdown hbegin => exact .beginShutdown hbegin

/-- At the end of an operation processes rest. -/
theorem Finishes.rests {d : Dispatch} {p : Progress} (h : s.Finishes d p) :
    Rests s.world p.session.world := by
  cases h with
  | create htask =>
    show Rests s.world (s.keepInstance _ d.target).world
    rw [world_keepInstance]
    exact .refl _
  | destroy htask | next htask => exact .tearDown _ _ _ _
  | shutdown htask => exact (Rests.tearDown _ _ _ _).trans (.releaseKey _ _ _)

/-- What is torn down is so for the task of its operation. -/
theorem task_beginTearDown (s : Session) (t : ThreadId) (tok : Token) (id : InstanceId) (task : Task)
    (failure? : Option AccessError) : (s.beginTearDown t tok id task failure?).task = task := by
  unfold beginTearDown
  split <;> rfl

/-- An operation that goes on is a shutdown, which comes to its next instance. -/
theorem none_of_finish {d d' : Dispatch} (h : s.finish d = .running d' s') (tok : Token) :
    d'.joins? tok = none ∧ d'.destroys? tok = none := by
  have htask : ∃ rest count, d'.task = .shutdown rest count := by
    cases finishes_of_finish h with
    | next htask => exact ⟨_, _, task_beginTearDown _ _ _ _ _ _⟩
  obtain ⟨rest, count, htask⟩ := htask
  unfold Dispatch.joins? Dispatch.destroys?
  rw [htask]
  exact ⟨rfl, rfl⟩

end Session

namespace Machine

open World Session

variable {m : Machine} {tok : Token} {id : InstanceId}

/-- The instance that the next step registers with the process. Its creation has hooks called next. -/
def joins? (m : Machine) (tok : Token) : Option InstanceId := m.begun?.bind (·.joins? tok)

/-- The instance that the next step takes from the registry of the process. Its destruction has hooks
called next. -/
def destroys? (m : Machine) (tok : Token) : Option InstanceId := m.begun?.bind (·.destroys? tok)

/-- A step that begins no dispatch registers nothing and destroys nothing. -/
theorem joins_of_none (h : m.begun? = none) :
    m.joins? = (fun _ => none) ∧ m.destroys? = (fun _ => none) := by
  constructor
  · funext tok
    unfold joins?
    rw [h]
    rfl
  · funext tok
    unfold destroys?
    rw [h]
    rfl

/-- A step that begins a dispatch registers or destroys what the dispatch is for. -/
theorem joins_of_begun {d : Dispatch} (h : m.begun? = some d) :
    m.joins? = d.joins? ∧ m.destroys? = d.destroys? := by
  constructor
  · funext tok
    unfold joins?
    rw [h]
    rfl
  · funext tok
    unfold destroys?
    rw [h]
    rfl

/-- A step that takes up nothing and ends no operation begins none. -/
theorem begun?_of_none (hnext : m.next? = none) (hfin : m.finishing? = none) : m.begun? = none := by
  unfold begun?
  rw [hfin, nextCall?_of_none hnext]
  rfl

/-- A step that begins no operation. -/
theorem enlists_of_none (hnone : m.begun? = none)
    (h : Enlists m.session.world m.act.session.world (fun _ => none) (fun _ => none)) :
    Enlists m.session.world m.act.session.world m.joins? m.destroys? := by
  obtain ⟨hjoins, hdestroys⟩ := joins_of_none hnone
  rw [hjoins, hdestroys]
  exact h

/-- A step registers the instance that it says it does, and destroys the one that it says it does. -/
theorem enlists_act (hok : m.unedited = true) :
    Enlists m.session.world m.act.session.world m.joins? m.destroys? := by
  have hopening : ∀ ctx, Rests m.session.world (m.opening ctx).world :=
    fun ctx => .calm (calm_setThread_thread m.session.world ctx.thread)
  have hturn := act_turn m
  generalize hsc : m.act.scene = sc at hturn
  -- an instance joins where a creation begins, and leaves where a teardown begins
  cases hturn with
  | idle hstack hnext =>
    have hfin : m.finishing? = none := by
      unfold finishing?
      rw [hstack]
    exact enlists_of_none (begun?_of_none hnext hfin) (.of_rests ((act_of_scene hsc).2 ▸ .refl _))
  | @served ctx c o s hcall hdone hserved =>
    obtain ⟨hbegun, -⟩ := begun_of_nextCall? hcall
    rw [hdone] at hbegun
    have hedit : c.editsRegistry = false := by
      unfold unedited at hok
      rw [hcall, Option.any_some] at hok
      simpa using hok
    refine enlists_of_none hbegun ?_
    rw [(act_of_scene hsc).2]
    exact (hserved.enlists hedit).after ⟨rfl, rfl, rfl⟩
  | @begins ctx p c tok d s job hcall hproc hrunning hbegins =>
    obtain ⟨hbegun, -⟩ := begun_of_nextCall? hcall
    rw [hrunning] at hbegun
    obtain ⟨hjoins, hdestroys⟩ := joins_of_begun hbegun
    rw [hjoins, hdestroys, (act_of_scene hsc).2]
    exact hbegins.enlists.after ⟨rfl, rfl, rfl⟩
  | @refused ctx step hnext hcall =>
    have hnone := begun_of_next? hnext fun on? c heq => by
      subst heq
      obtain rfl := hcall c (nextCall?_of_call hnext)
      rfl
    exact enlists_of_none hnone.1 (.of_rests ((act_of_scene hsc).2 ▸ hopening ctx))
  | @opens ctx on? o steps b s job hnext hent =>
    have hentered : Rests (m.opening ctx).world s.world := by
      cases entered_of_enter hent with
      | lock focus tokens ids htake => exact .calm (calm_take htake)
      | storage tokens hborrow => exact .of_local (borrow_ok hborrow).frame
      | attempt => exact .refl _
    exact enlists_of_none (begun_of_next? hnext nofun).1
      (.of_rests ((act_of_scene hsc).2 ▸ (hopening ctx).trans hentered))
  | @registers ctx on? r steps hnext =>
    exact enlists_of_none (begun_of_next? hnext nofun).1
      (.of_rests ((act_of_scene hsc).2 ▸ (hopening ctx).trans (.calm (calm_registerHook _ _ _ _))))
  | @fails ctx hnext =>
    have hnone := begun_of_next? hnext fun on? c heq => by
      obtain ⟨-, rfl⟩ := Step.call.inj heq
      rfl
    obtain ⟨ended, -, hend⟩ := endUses_unwind (m.opening ctx) m.stack
    exact enlists_of_none hnone.1
      (.of_rests ((act_of_scene hsc).2 ▸ (hopening ctx).trans (.endUses hend)))
  | @closes b below hstack hpending =>
    have hfin : m.finishing? = none := by
      unfold finishing?
      rw [hstack]
    have hundo := endUses_undo m.session b (.done (.refl _))
    exact enlists_of_none (begun?_of_none (next?_of_done hstack hpending) hfin)
      (.of_rests ((act_of_scene hsc).2 ▸ .endUses hundo))
  | @skips d job below c rest hstack hpending _ | @calls d job below c rest _ hstack hpending _ =>
    have hfin : m.finishing? = none := by
      unfold finishing?
      rw [hstack]
      dsimp only
      rw [hpending]
      rfl
    exact enlists_of_none (begun?_of_none (next?_of_dispatch hstack) hfin)
      (.of_rests ((act_of_scene hsc).2 ▸ .of_sub (fun _ _ => id) rfl rfl))
  | @finishes d job below o s hstack hfin hdone =>
    obtain ⟨hbegun, -⟩ := begun_of_finishing? hfin
    rw [hdone] at hbegun
    exact enlists_of_none hbegun
      (.of_rests ((act_of_scene hsc).2 ▸ (finishes_of_finish hdone).rests))
  | @goesOn d d' job below s hstack hfin hrunning =>
    obtain ⟨hbegun, -⟩ := begun_of_finishing? hfin
    rw [hrunning] at hbegun
    obtain ⟨hjoins, hdestroys⟩ := joins_of_begun hbegun
    have hnone := none_of_finish hrunning
    rw [hjoins, hdestroys, funext fun tok => (hnone tok).1, funext fun tok => (hnone tok).2,
      (act_of_scene hsc).2]
    exact .of_rests (finishes_of_finish hrunning).rests

end Machine

end TieredState
