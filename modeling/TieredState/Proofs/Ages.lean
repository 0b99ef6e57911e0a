import TieredState.Proofs.Nesting
import TieredState.Proofs.Uses

/-!
# What is past

Whatever is done in a run, be it past every check, some things cannot be undone: identities and tokens
are drawn once, an instance that is dead or gone does not live again, a process that is shut down stays
so, and bindings that are void stay void. `Ages w w'` says this of two worlds, the second of which
comes later. It says less than `Grows`, which holds of orderly steps only.

* `turn_ages` — a step of any kind makes the world age.
* `dated_of_run` — at every point of every run, what is live was drawn, and the bindings of a process
  are void only when it is shut down.
-/

namespace TieredState

namespace World

variable {w w' w'' : World} {t : ThreadId} {tok : Token} {id : InstanceId} {closing : List Token}

/-- The second world comes later, in a run of steps of any kind. -/
structure Ages (w w' : World) : Prop where
  nextInstance : w.nextInstance ≤ w'.nextInstance
  nextToken : w.nextToken ≤ w'.nextToken
  live : ∀ id, w'.isLive id = true →
    w.isLive id = true ∨ w.nextInstance ≤ id.number ∧ id.number < w'.nextInstance
  processes : ∀ tok p', w'.processes.get? tok = some p' →
    (∃ p, w.processes.get? tok = some p ∧ (p.phase = .shutDown → p'.phase = .shutDown) ∧
      (p.released = true → p'.released = true) ∧
      (p'.released = true → p.released = true ∨ p'.phase = .shutDown)) ∨
    w.nextToken ≤ tok.number ∧ tok.number < w'.nextToken ∧
      (p'.released = true → p'.phase = .shutDown)

namespace Ages

theorem trans (h : Ages w w') (h' : Ages w' w'') : Ages w w'' where
  nextInstance := Nat.le_trans h.nextInstance h'.nextInstance
  nextToken := Nat.le_trans h.nextToken h'.nextToken
  live id hlive := by
    have hnext := h.nextInstance
    have hnext' := h'.nextInstance
    rcases h'.live id hlive with hlive' | hnew
    · rcases h.live id hlive' with hold | hnew
      · exact .inl hold
      · exact .inr (by omega)
    · exact .inr (by omega)
  processes tok p'' hp'' := by
    have hnext := h.nextToken
    have hnext' := h'.nextToken
    -- what is there in the end is there from the start, or was started in one of the two changes
    rcases h'.processes tok p'' hp'' with ⟨p', hp', hdown', hvoid', hback'⟩ | ⟨hle, hlt, hfresh⟩
    · rcases h.processes tok p' hp' with ⟨p, hp, hdown, hvoid, hback⟩ | ⟨hle, hlt, hfresh⟩
      · refine .inl ⟨p, hp, hdown' ∘ hdown, hvoid' ∘ hvoid, fun hreleased => ?_⟩
        rcases hback' hreleased with hreleased' | hdown''
        · exact (hback hreleased').imp_right hdown'
        · exact .inr hdown''
      · refine .inr ⟨hle, by omega, fun hreleased => ?_⟩
        rcases hback' hreleased with hreleased' | hdown''
        · exact hdown' (hfresh hreleased')
        · exact hdown''
    · exact .inr ⟨by omega, hlt, hfresh⟩

/-- Processes and instances may go, and identities may be drawn. -/
theorem of_sub (hlive : ∀ id, w'.isLive id = true → w.isLive id = true)
    (hproc : ∀ tok p, w'.processes.get? tok = some p → w.processes.get? tok = some p)
    (hinst : w.nextInstance ≤ w'.nextInstance) (htoken : w'.nextToken = w.nextToken) :
    Ages w w' where
  nextInstance := hinst
  nextToken := Nat.le_of_eq htoken.symm
  live id h := .inl (hlive id h)
  processes tok p hp := .inl ⟨p, hproc tok p hp, id, id, .inl⟩

theorem refl (w : World) : Ages w w := of_sub (fun _ => id) (fun _ _ => id) (Nat.le_refl _) rfl

/-- The world ages while a thread does something for itself. -/
theorem of_local (hl : Local t w w') : Ages w w' :=
  of_sub (fun id hlive => hl.isLive id ▸ hlive) (fun _ _ hp => hl.processes ▸ hp)
    (Nat.le_of_eq hl.nextInstance.symm) hl.nextToken

theorem calm (hc : Calm w w') : Ages w w' where
  nextInstance := Nat.le_of_eq hc.nextInstance.symm
  nextToken := Nat.le_of_eq hc.nextToken.symm
  live id hlive := .inl (hc.isLive id ▸ hlive)
  processes tok p' hp' := by
    obtain ⟨p, hp, hphase, -, -, hreleased⟩ := hc.process_of hp'
    exact .inl ⟨p, hp, fun h => hphase ▸ h, fun h => hreleased ▸ h, fun h => .inl (hreleased ▸ h)⟩

/-- A process may be shut down, and then its bindings may become void. -/
theorem of_modifyProcess {f : Process → Process}
    (hf : ∀ p, w.processes.get? tok = some p → (p.phase = .shutDown → (f p).phase = .shutDown) ∧
      (p.released = true → (f p).released = true) ∧
      ((f p).released = true → p.released = true ∨ (f p).phase = .shutDown)) :
    Ages w (w.modifyProcess tok f) := by
  refine ⟨Nat.le_refl _, Nat.le_refl _, fun _ => .inl, fun tok' p' hp' => .inl ?_⟩
  rcases (get?_modifyProcess_eq_some _ _ _).1 hp' with ⟨rfl, p, hp, rfl⟩ | ⟨-, hp⟩
  · exact ⟨p, hp, hf p hp⟩
  · exact ⟨p', hp, id, id, .inl⟩

/-- A change of a process that has nothing to do with its phase and its bindings. -/
theorem of_same {f : Process → Process} (hf : ∀ p, w.processes.get? tok = some p →
    (f p).phase = p.phase ∧ (f p).released = p.released) : Ages w (w.modifyProcess tok f) := by
  refine of_modifyProcess fun p hp => ?_
  obtain ⟨hphase, hreleased⟩ := hf p hp
  rw [hphase, hreleased]
  exact ⟨id, id, .inl⟩

/-! ## The operations -/

theorem start (w : World) (c : Config) : Ages w (w.start c).2 := by
  refine ⟨Nat.le_refl _, Nat.le_succ _, fun _ => .inl, fun tok p' hp' => ?_⟩
  rw [get?_start] at hp'
  split at hp'
  · next heq =>
    obtain rfl := Option.some.inj hp'
    rw [heq]
    exact .inr ⟨Nat.le_refl _, Nat.lt_succ_self _, fun hnever => by cases hnever⟩
  · exact .inl ⟨p', hp', id, id, .inl⟩

theorem enroll (w : World) (t : ThreadId) (tok : Token) (parent? : Option InstanceId) :
    Ages w (w.enroll t tok parent?).2 := by
  rcases enroll_cases w t tok parent? with ⟨e, heq⟩ | ⟨e, heq⟩ | ⟨p, -, -, heq⟩ <;> rw [heq]
  · exact refl w
  · exact of_sub (fun _ => id) (fun _ _ => id) (Nat.le_succ _) rfl
  -- the instance has the identity that was drawn for it, the others are as they were
  · refine ⟨Nat.le_succ _, Nat.le_refl _, fun id hlive => ?_, fun tok' p' hp' => .inl ?_⟩
    · obtain ⟨i, hi, halive⟩ := isLive_iff.1 hlive
      rw [get?_enrolled] at hi
      split at hi
      · next heq =>
        rw [heq]
        exact .inr ⟨Nat.le_refl _, Nat.lt_succ_self _⟩
      · exact .inl (isLive_iff.2 ⟨i, hi, halive⟩)
    · rcases get?_enrolled_eq_some.1 hp' with ⟨rfl, p, hp, rfl⟩ | ⟨-, hp⟩
      · refine ⟨p, hp, fun hdown => ?_, id, .inl⟩
        simp [Process.register, hdown]
      · exact ⟨p', hp, id, id, .inl⟩

theorem withdraw (hw : w.withdraw t tok id = .ok w') : Ages w w' := by
  obtain ⟨p, -, -, -, rfl⟩ := withdraw_ok hw
  exact of_same fun _ _ => ⟨rfl, rfl⟩

theorem beginShutdown {ids : List InstanceId} (hw : w.beginShutdown t tok = .ok (ids, w')) :
    Ages w w' := by
  obtain ⟨p, -, -, rfl⟩ := beginShutdown_ok hw
  exact of_modifyProcess fun _ _ => ⟨fun _ => rfl, fun h => h, .inl⟩

/-- The bindings of a process become void when it is shut down. -/
theorem releaseKey (h : ∀ p, w.processes.get? tok = some p → p.phase = .shutDown) (t : ThreadId) :
    Ages w (w.releaseKey t tok) := by
  have hmodify : Ages w (w.modifyProcess tok fun p => { p with released := true }) :=
    of_modifyProcess fun p hp => ⟨fun hdown => hdown, fun _ => rfl, fun _ => .inr (h p hp)⟩
  exact hmodify.trans (.of_local (local_setThread _ _ _))

theorem tearDown (w : World) (t : ThreadId) (tok : Token) (id : InstanceId) :
    Ages w (w.tearDown t tok id) := by
  have hmarked : Ages w (w.marked id) := by
    refine of_sub (fun id' hlive => ?_) (fun _ _ hp => hp) (Nat.le_refl _) rfl
    rw [isLive_marked, Bool.and_eq_true] at hlive
    exact hlive.2
  rcases tearDown_cases w t tok id with ⟨heq, -⟩ | ⟨-, hspec⟩
  · rw [heq]
    exact hmarked
  · exact hmarked.trans (.of_local hspec.frame)

theorem endBorrow (w : World) (t : ThreadId) (s : StorageId) : Ages w (w.endBorrow t s) :=
  .of_local (endBorrow_spec w t s).frame

end Ages

/-- A sweep takes away, and nothing else. -/
theorem sweep_sub (s : Session) (t : ThreadId) (tokens : List Token) (ids : List InstanceId) :
    (∀ id, (s.sweep t tokens ids).world.isLive id = true → s.world.isLive id = true) ∧
    (∀ tok p, (s.sweep t tokens ids).world.processes.get? tok = some p →
      s.world.processes.get? tok = some p) ∧
    (s.sweep t tokens ids).world.nextInstance = s.world.nextInstance ∧
    (s.sweep t tokens ids).world.nextToken = s.world.nextToken := by
  refine ⟨fun id hlive => ?_, fun tok p hp => (Session.get?_of_sweep hp).2,
    Session.nextInstance_sweep _ _ _ _, Session.nextToken_sweep _ _ _ _⟩
  obtain ⟨i, hi, halive⟩ := isLive_iff.1 hlive
  exact isLive_iff.2 ⟨i, Session.instance_of_sweep hi, halive⟩

theorem Ages.sweep (s : Session) (t : ThreadId) (tokens : List Token) (ids : List InstanceId) :
    Ages s.world (s.sweep t tokens ids).world := by
  obtain ⟨hlive, hproc, hnext, htoken⟩ := sweep_sub s t tokens ids
  exact of_sub hlive hproc (Nat.le_of_eq hnext.symm) htoken

/-- A key is not released while its process is there and has not released it. -/
theorem isReleased_iff : w.isReleased tok = false ↔
    ∃ p, w.processes.get? tok = some p ∧ p.released = false := by
  unfold isReleased
  cases w.processes.get? tok <;> simp

/-! ## What was drawn -/

/-- What is live was drawn, the bindings of a process are void only when it is shut down, and what is
being shut down, the processes `closing`, is past its life. -/
structure Dated (w : World) (closing : List Token) : Prop where
  live : ∀ id, w.isLive id = true → id.number < w.nextInstance
  processes : ∀ tok p, w.processes.get? tok = some p →
    tok.number < w.nextToken ∧ (p.released = true → p.phase = .shutDown)
  closing : ∀ tok ∈ closing, tok.number < w.nextToken ∧
    ∀ p, w.processes.get? tok = some p → p.phase = .shutDown

namespace Dated

theorem empty : Dated {} [] where
  live _ h := by cases h
  processes _ _ h := by cases h
  closing _ h := by cases h

/-- What is dated stays so as the world ages. -/
theorem ages (h : Dated w closing) (ha : Ages w w') : Dated w' closing where
  live id hlive := by
    have hnext := ha.nextInstance
    rcases ha.live id hlive with hold | hnew
    · have hdrawn := h.live id hold
      omega
    · exact hnew.2
  processes tok p' hp' := by
    have hnext := ha.nextToken
    -- an older process does not come up again, and a new one is not released
    rcases ha.processes tok p' hp' with ⟨p, hp, hdown, -, hback⟩ | ⟨-, hlt, hfresh⟩
    · obtain ⟨hdrawn, hvoid⟩ := h.processes tok p hp
      refine ⟨by omega, fun hreleased => ?_⟩
      rcases hback hreleased with hold | hshut
      · exact hdown (hvoid hold)
      · exact hshut
    · exact ⟨hlt, hfresh⟩
  closing tok hmem := by
    have hnext := ha.nextToken
    obtain ⟨hdrawn, hshut⟩ := h.closing tok hmem
    refine ⟨by omega, fun p' hp' => ?_⟩
    rcases ha.processes tok p' hp' with ⟨p, hp, hdown, -, -⟩ | ⟨hle, -, -⟩
    · exact hdown (hshut p hp)
    · omega

/-- With fewer shutdowns under way there is less to be dated. -/
theorem of_subset {closing' : List Token} (h : Dated w closing) (hsub : closing' ⊆ closing) :
    Dated w closing' :=
  ⟨h.live, h.processes, fun tok hmem => h.closing tok (hsub hmem)⟩

/-- A process that is not shut down has bindings. -/
theorem not_released (h : Dated w closing) {p : Process} (hp : w.live tok = .ok p) :
    w.isReleased tok = false := by
  obtain ⟨hget, hphase⟩ := live_ok.1 hp
  unfold isReleased
  rw [hget]
  exact Bool.eq_false_iff.2 fun hreleased => hphase ((h.processes tok p hget).2 hreleased)

end Dated

end World

namespace Machine

open World Session

variable {allowed : Machine → Bool} {m m' : Machine} {v v' : View}

/-! ## Steps of any kind -/

/-- The world ages when closures end. -/
theorem EndUses.ages {w w' : World} {ended : List (ThreadId × StorageId)} (he : EndUses w ended w') :
    Ages w w' := by
  induction he with
  | done hc => exact .calm hc
  | calm hc _ ih => exact (Ages.calm hc).trans ih
  | storage _ ih => exact (Ages.endBorrow _ _ _).trans ih

/-- The world ages in a move, and stays dated. -/
theorem Move.ages (h : Move m v v') (hd : v.world.Dated v.closing) :
    Ages v.world v'.world ∧ v'.world.Dated v'.closing := by
  have hkeep : ∀ {w : World}, Ages v.world w → Ages v.world w ∧ w.Dated v.closing :=
    fun ha => ⟨ha, hd.ages ha⟩
  cases h with
  | calm hc => exact hkeep (.calm hc)
  | start c hc => exact hkeep ((Ages.start _ c).trans (.calm hc))
  | endThread _ => exact hkeep (.of_local (local_withoutThread _ _))
  | bind _ => exact hkeep (.of_local (local_bind _ _ _ _))
  | release _ hr => exact hkeep (.of_local (local_release hr))
  | enroll t tok parent? => exact hkeep (.enroll _ _ _ _)
  | withdraw hw => exact hkeep (.withdraw hw)
  | @beginShutdown t tok ids w hw =>
    have ha := Ages.beginShutdown hw
    have hdated := hd.ages ha
    refine ⟨ha, hdated.live, hdated.processes, fun tok' hmem => ?_⟩
    rcases List.mem_cons.1 hmem with rfl | hmem
    · obtain ⟨p, hp, -, rfl⟩ := beginShutdown_ok hw
      exact ⟨(hd.processes _ p (live_ok.1 hp).1).1, phase_of_beginShutdown hw⟩
    · exact hdated.closing tok' hmem
  | shutdown _ hw =>
    exact hkeep ((Ages.beginShutdown hw).trans (.releaseKey (phase_of_beginShutdown hw) _))
  | tearDown _ _ => exact hkeep (.tearDown _ _ _ _)
  | @endShutdown t tok id _ _ charges _ closing hclosing =>
    -- the process was shut down when the operation began, and is so still
    have htear := Ages.tearDown v.world t tok id
    have hdated := hd.ages htear
    rw [hclosing] at hdated
    have ha := htear.trans (.releaseKey (hdated.closing tok List.mem_cons_self).2 t)
    refine ⟨ha, (hd.ages ha).of_subset ?_⟩
    rw [hclosing]
    exact List.subset_cons_self _ _
  | borrow hw => exact hkeep (.of_local (borrow_ok hw).frame)
  | endUses _ he => exact hkeep he.ages

/-- A call that changes a registry past every check changes nothing else. -/
theorem registryCall_cases (s : Session) (ctx : Context) (tok : Token) (c : FocusCall) :
    (s.registryCall ctx tok c).2.world = s.world ∨
      ∃ p registry, s.world.processes.get? tok = some p ∧
        (s.registryCall ctx tok c).2.world = s.world.modifyProcess tok fun _ => { p with registry } := by
  -- the registry is edited in place, so nothing else of the process can change
  have honProcess : ∀ f : Process → Answer × Process,
      (∀ p, ∃ registry, (f p).2 = { p with registry }) → (s.onProcess tok f).2.world = s.world ∨
        ∃ p registry, s.world.processes.get? tok = some p ∧
          (s.onProcess tok f).2.world = s.world.modifyProcess tok fun _ => { p with registry } := by
    intro f hf
    unfold onProcess
    split
    · exact .inl rfl
    · next p hp =>
      obtain ⟨registry, hregistry⟩ := hf p
      exact .inr ⟨p, registry, hp, by rw [← hregistry]; rfl⟩
  cases c with
  | insertInstance i =>
    simp only [registryCall]
    split
    · exact .inl rfl
    · exact honProcess _ fun _ => ⟨_, rfl⟩
  | removeInstance i =>
    simp only [registryCall]
    split
    · exact .inl rfl
    · exact honProcess _ fun _ => ⟨_, rfl⟩
  | findInstance i =>
    simp only [registryCall]
    split
    · exact .inl rfl
    · exact honProcess _ fun p => ⟨p.registry, rfl⟩
  | _ => exact .inl rfl

/-- A change past every check is one of a registry, and of nothing else. -/
theorem edit_cases {s s' : Session} {ctx : Context} {c : Call} {o : Outcome}
    (hedit : c.editsRegistry = true) (h : s.Served ctx c o s') : s'.world = s.world ∨
      ∃ tok p registry, s.world.processes.get? tok = some p ∧
        s'.world = s.world.modifyProcess tok fun _ => { p with registry } := by
  cases h with
  | plain _ =>
    cases c with
    | focus c =>
      simp only [plainCall, focusCall]
      split
      · exact .inl rfl
      · split
        · cases c <;> first | exact .inl rfl | cases hedit
        · cases c <;> first | exact .inl rfl | cases hedit
        · cases c <;> first | exact .inl rfl | cases hedit
        · exact (registryCall_cases s ctx _ c).imp_right fun h => ⟨_, h⟩
        all_goals cases c <;> first | exact .inl rfl | cases hedit
    | _ => cases hedit
  | process _ _ _ => cases hedit
  | refused _ => cases hedit
  | drawn _ _ => cases hedit
  | shutdown _ _ => cases hedit

/-- A registry that is changed past every check makes no difference to lives and phases. -/
theorem ages_edit {s s' : Session} {ctx : Context} {c : Call} {o : Outcome}
    (hedit : c.editsRegistry = true) (h : s.Served ctx c o s') : Ages s.world s'.world := by
  rcases edit_cases hedit h with heq | ⟨tok, p, registry, hp, heq⟩
  · rw [heq]
    exact .refl _
  · rw [heq]
    refine .of_same fun q hq => ?_
    obtain rfl := Option.some.inj (hp.symm.trans hq)
    exact ⟨rfl, rfl⟩

/-- The world ages in a turn, and stays dated. -/
theorem turn_ages {sc : Scene} (h : Turn m sc) (hd : m.session.world.Dated m.closing) :
    Ages m.session.world sc.view.world ∧ sc.view.world.Dated sc.view.closing := by
  have hopening : ∀ ctx, Ages m.session.world (m.opening ctx).world :=
    fun ctx => .calm (calm_setThread_thread _ _)
  rcases turn_move h with ⟨w, hc, hmove⟩ | ⟨ctx, c, o, s, -, hedit, hserved, rfl⟩ | ⟨ctx, -, -, rfl⟩
  · obtain ⟨ha, hdated⟩ := hmove.ages (hd.ages (.calm hc))
    exact ⟨(Ages.calm hc).trans ha, hdated⟩
  · rw [Scene.view_of]
    have ha := (hopening ctx).trans (ages_edit hedit hserved)
    exact ⟨ha, hd.ages ha⟩
  · rw [Scene.view_of]
    obtain ⟨ended, -, hended⟩ := endUses_unwind (m.opening ctx) m.stack
    have ha := (hopening ctx).trans hended.ages
    -- what is unwound is gone from the stack, so fewer shutdowns are under way
    refine ⟨ha, (hd.ages ha).of_subset fun tok hmem => ?_⟩
    obtain ⟨f, hf, hin⟩ := List.mem_flatMap.1 hmem
    exact List.mem_flatMap.2 ⟨f, (unwind_suffix _ _).subset hf, hin⟩

/-! ## Runs of any kind -/

/-- What is live was drawn, and what is being shut down is past its life. -/
def Dated (m : Machine) : Prop := m.session.world.Dated m.closing

/-- The world ages in a step of any kind, and stays dated. -/
theorem ages_step (hd : m.Dated) : Ages m.session.world m.step.session.world ∧ m.step.Dated := by
  have hturn := turn_ages (act_turn m) hd
  rw [view_scene] at hturn
  obtain ⟨ha, hdated⟩ := hturn
  have hsweep := Ages.sweep m.act.session m.actor m.act.heldTokens m.act.heldIds
  exact ⟨ha.trans hsweep, hdated.ages hsweep⟩

/-- The world stays dated in every run. -/
theorem dated_of_run (hd : m.Dated) (hrun : Run allowed m m') : m'.Dated := by
  induction hrun with
  | refl => exact hd
  | step _ _ ih => exact (ages_step ih).2
  | @redirect m' _ steps ih =>
    have hclosing : (m'.redirect steps).closing = m'.closing :=
      congrArg View.closing (view_redirect m' steps)
    unfold Dated
    rw [world_redirect, hclosing]
    exact ih

/-- The world ages in every run. -/
theorem ages_of_run (hd : m.Dated) (hrun : Run allowed m m') :
    Ages m.session.world m'.session.world := by
  induction hrun with
  | refl => exact .refl _
  | step hrun _ ih => exact ih.trans (ages_step (dated_of_run hd hrun)).1
  | redirect _ steps ih =>
    rw [world_redirect]
    exact ih

/-- At every point of every run, with steps of any kind, the world is dated. -/
theorem dated_of_reachable (hm : Reachable allowed m) : m.Dated := by
  obtain ⟨files, environment, fieldCount, script, hrun⟩ := hm
  have hstart : (start files environment fieldCount script).Dated := World.Dated.empty
  exact dated_of_run hstart hrun

end Machine

end TieredState
