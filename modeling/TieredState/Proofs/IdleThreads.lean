import TieredState.Proofs.Locks
import TieredState.Proofs.Storages
import TieredState.Proofs.Views

/-!
# Threads that use nothing

A thread that holds no lock and uses no variables is refused by nothing but the state of the process and
of the instance that it asks for. `World.Idle` says that it is such a thread, and to what it is bound.

* `Idle.bind`, `Idle.withInstance`, `Idle.changeThread`, `Idle.current`, `Idle.release` — a call that it
  makes succeeds, and leaves it idle.
* `Keeps` — what a call of one thread on one instance leaves alone.
-/

namespace TieredState

namespace World

/-- The thread holds no lock, uses no variables, and is bound to that instance of the process. -/
structure Idle (w : World) (t : ThreadId) (tok : Token) (bound? : Option InstanceId) : Prop where
  held : w.holds t = []
  sound : (w.thread t).Sound
  unused : ∀ s, (w.thread t).usage s ≠ some true
  bound : ((w.thread t).binding? tok).map (·.target) = bound?

/-- All that may have changed is what the thread keeps, its instance, and which identity comes next. -/
structure Keeps (t : ThreadId) (own? : Option InstanceId) (w w' : World) : Prop where
  processes : w'.processes = w.processes
  nextInstance : w.nextInstance ≤ w'.nextInstance
  threads : ∀ t', t' ≠ t → w'.thread t' = w.thread t'
  instances : ∀ id, own? ≠ some id → w'.instances.get? id = w.instances.get? id

variable {w w' : World} {t : ThreadId} {tok : Token} {own : InstanceId} {bound? own? : Option InstanceId}
  {p : Process}

theorem Local.trans {w'' : World} (h : Local t w w') (h' : Local t w' w'') : Local t w w'' where
  instances := h'.instances.trans h.instances
  processes := h'.processes.trans h.processes
  nextInstance := h'.nextInstance.trans h.nextInstance
  nextToken := h'.nextToken.trans h.nextToken
  others t' hne := (h'.others t' hne).trans (h.others t' hne)

/-- What a thread does for itself keeps everything else. -/
theorem Local.keeps (h : Local t w w') (own? : Option InstanceId) : Keeps t own? w w' where
  processes := h.processes
  nextInstance := Nat.le_of_eq h.nextInstance.symm
  threads := h.others
  instances id _ := by rw [h.instances]

/-- A thread that holds nothing may take any lock. -/
theorem mayTake_of_nil (h : w.holds t = []) (l : Lock) : w.mayTake t l = .ok () := by
  refine mayTake_ok.2 fun x hx => ?_
  have hheld : (w.thread t).held = [] := h
  rw [hheld] at hx
  cases hx

theorem holds_modifyThreadVars (w : World) (t : ThreadId) (s : StorageId) (f : ThreadVars → ThreadVars) :
    (w.modifyThreadVars t s f).holds = w.holds :=
  holds_setThread_of_held rfl

namespace Idle

theorem congr (h : Idle w t tok bound?) (hthread : w'.thread t = w.thread t) : Idle w' t tok bound? := by
  obtain ⟨hheld, hsound, hunused, hbound⟩ := h
  unfold holds at hheld
  rw [← hthread] at hheld hsound hunused hbound
  exact ⟨hheld, hsound, hunused, hbound⟩

theorem calm (h : Idle w t tok bound?) (hc : Calm w w') (hheld : w'.holds t = []) :
    Idle w' t tok bound? where
  held := hheld
  sound := h.sound.congr (hc.bindings t) (hc.usage t) (hc.nextStorage t)
  unused s := by
    rw [hc.usage]
    exact h.unused s
  bound := by
    rw [hc.bindings]
    exact h.bound

/-- An idle thread that is said to be bound is bound. -/
theorem binding (h : Idle w t tok (some own)) :
    ∃ b, (w.thread t).binding? tok = some b ∧ b.target = own :=
  Option.map_eq_some_iff.1 h.bound

/-! ## Bindings -/

/-- An idle thread without a binding can be bound to a live instance of the process. -/
theorem bind (h : Idle w t tok none) (hp : w.live tok = .ok p) (howner : w.checkOwner tok own = .ok ())
    (hlive : w.isLive own = true) :
    ∃ b w', w.bind t tok own = (.ok b, w') ∧ Idle w' t tok (some own) ∧ Local t w w' := by
  have heq : w.bind t tok own = w.bindThread t tok own := by
    unfold World.bind
    rw [hp, howner, (checkAlive_ok (u := ())).2 hlive]
  have hspec := bindThread_spec w t tok own
  have hheld : (w.bindThread t tok own).2.holds t = [] := by
    rw [holds_bindThread]
    exact h.held
  have hnone : (w.pruneSlots (w.thread t)).binding? tok = none := by
    rw [binding?_pruneSlots, Option.map_eq_none_iff.1 h.bound]
    split <;> rfl
  -- a thread that has no binding is refused none
  have hok : ∃ b, (w.bindThread t tok own).1 = .ok b := by
    obtain ⟨th', hrebound, -⟩ := bindThread_cases w t tok own
    generalize (w.bindThread t tok own).1 = r at hrebound
    cases hrebound with
    | refused hb e => cases hb.symm.trans hnone
    | same hb htarget => exact ⟨_, rfl⟩
    | fresh hb => exact ⟨_, rfl⟩
    | moved hb htarget hfree hth' => exact ⟨_, rfl⟩
  obtain ⟨b, hb⟩ := hok
  refine ⟨b, (w.bindThread t tok own).2, heq.trans (Prod.ext hb rfl), ⟨hheld, hspec.sound h.sound, ?_, ?_⟩,
    hspec.frame⟩
  · exact fun s hs => h.unused s (hspec.usage s hs)
  · rcases hspec.own with ⟨b', -, htarget, hbinding⟩ | ⟨e, he, -⟩
    · rw [hbinding, ← htarget]
      rfl
    · cases he.symm.trans hb

/-- An idle thread is told the instance that it is bound to. -/
theorem current (h : Idle w t tok (some own)) (hp : w.live tok = .ok p) (hlive : w.isLive own = true) :
    w.current t tok = .ok own := by
  obtain ⟨b, hb, rfl⟩ := h.binding
  unfold World.current boundInstance
  rw [hp, hb]
  exact handleInstance_live hlive

/-- An idle thread is given a handle to its own binding. -/
theorem currentThread (h : Idle w t tok (some own)) (hp : w.live tok = .ok p)
    (hlive : w.isLive own = true) :
    ∃ b, (w.thread t).binding? tok = some b ∧ w.currentThread t tok = .ok b ∧ b.target = own := by
  obtain ⟨b, hb, rfl⟩ := h.binding
  refine ⟨b, hb, ?_, rfl⟩
  unfold World.currentThread boundHandle
  rw [hp, hb]
  dsimp only
  rw [handleInstance_live hlive]
  rfl

theorem release (h : Idle w t tok bound?) (hp : w.live tok = .ok p) :
    ∃ id? w', w.release t tok = .ok (id?, w') ∧ Idle w' t tok none ∧ Local t w w' := by
  have heq : w.release t tok = w.unbindThread t tok := by
    unfold World.release
    rw [hp]
    rfl
  cases hunbind : w.unbindThread t tok with
  | error e =>
    obtain ⟨-, b, -, hused⟩ := unbindThread_error hunbind
    exact absurd hused (h.unused b.storage)
  | ok r =>
    have hspec := unbindThread_ok hunbind
    refine ⟨r.1, r.2, heq.trans hunbind, ⟨?_, hspec.sound h.sound, ?_, ?_⟩, hspec.frame⟩
    · rw [holds_unbindThread hunbind]
      exact h.held
    · exact fun s hs => h.unused s (hspec.usage s hs)
    · rw [hspec.bindings, if_pos rfl]
      rfl

/-! ## Variables -/

/-- An idle thread can take any lock, and holds nothing else then. -/
theorem take (h : Idle w t tok bound?) (l : Lock) :
    ∃ w', w.take t l = .ok w' ∧ w'.holds t = [l] ∧ w'.instances = w.instances ∧ Local t w w' := by
  obtain ⟨w', hw'⟩ : ∃ w', w.take t l = .ok w' := by
    refine take_of_lt fun x hx => ?_
    rw [h.held] at hx
    cases hx
  obtain ⟨held, -, heq⟩ := take_ok hw'
  refine ⟨w', hw', ?_, by rw [heq]; rfl, by rw [heq]; exact local_setThread w t _⟩
  rw [(holds_take hw').2, if_pos rfl, h.held]
  rfl

/-- The thread uses the variables of its instance, which no one else can have changed on the way. -/
theorem withInstance {α : Type} (h : Idle w t tok (some own)) (hp : w.live tok = .ok p) {i : Instance}
    (hi : w.instances.get? own = some i) (halive : i.alive = true) (f : InstanceVars → α × InstanceVars) :
    ∃ w', w.withInstance t tok f = .ok ((f i.vars).1, w') ∧ Idle w' t tok (some own) ∧
      Keeps t (some own) w w' ∧ Calm w w' ∧
      w'.instances.get? own = some { i with vars := (f i.vars).2 } := by
  have hlive : w.isLive own = true := isLive_iff.2 ⟨i, hi, halive⟩
  obtain ⟨w₁, htake, hheld, hinstances, hlocal⟩ := h.take .instanceVars
  have henter : w.enterCurrent t tok = .ok (own, w₁) := by
    rw [enterCurrent_of_current (h.current hp hlive), enterInstance_of_isLive hlive, htake]
    rfl
  -- taking the lock changes no variables, so they are those of the world before
  have hi₁ : w₁.instances.get? own = some i := by
    rw [hinstances]
    exact hi
  have hwrite : Calm w₁ (w₁.modifyInstance own fun i' => { i' with vars := (f i.vars).2 }) :=
    .of_modifyInstance fun _ => rfl
  have hcalm := ((calm_take htake).trans hwrite).trans (calm_giveBack _ t .instanceVars)
  refine ⟨_, ?_, h.calm hcalm ?_, ⟨?_, ?_, ?_, ?_⟩, hcalm, ?_⟩
  · refine bind_eq_ok.2 ⟨(own, w₁), henter, ?_⟩
    dsimp only
    rw [hi₁]
    rfl
  · rw [holds_giveBack, if_pos rfl]
    show (w₁.holds t).release .instanceVars = []
    rw [hheld]
    rfl
  · exact hlocal.processes
  · exact Nat.le_of_eq hlocal.nextInstance.symm
  · intro t' hne
    exact (thread_setThread (t := t) ..).trans ((if_neg hne).trans (hlocal.others t' hne))
  · intro id hne
    show (w₁.modifyInstance own _).instances.get? id = _
    rw [get?_modifyInstance, if_neg fun heq => hne (congrArg some heq.symm), hinstances]
  · show (w₁.modifyInstance own _).instances.get? own = _
    rw [get?_modifyInstance, if_pos rfl, hi₁]
    rfl

/-- An idle thread can write the variables of its binding. -/
theorem changeThread (h : Idle w t tok (some own)) (hp : w.live tok = .ok p) (hlive : w.isLive own = true)
    (f : ThreadVars → ThreadVars) :
    ∃ w', w.changeThread t tok f = .ok w' ∧ Idle w' t tok (some own) ∧ Local t w w' := by
  obtain ⟨b, hb, hcurrent, rfl⟩ := h.currentThread hp hlive
  -- the storage is there and in use by nobody, so it can be borrowed
  obtain ⟨w₁, hborrow⟩ : ∃ w₁, w.borrow t b = .ok w₁ := by
    rcases borrow_live h.sound hb hlive with hok | hreentrant
    · exact hok
    · rcases borrow_error hreentrant with ⟨hne, -⟩ | ⟨hne, -⟩ | ⟨-, hused⟩
      · cases hne
      · cases hne
      · exact absurd hused (h.unused b.storage)
  have hspec := borrow_ok hborrow
  have hcalm := calm_modifyThreadVars w₁ t b.storage f
  have hend := endBorrow_spec (w₁.modifyThreadVars t b.storage f) t b.storage
  have hlocal : Local t w₁ (w₁.modifyThreadVars t b.storage f) := local_setThread _ _ _
  refine ⟨(w₁.modifyThreadVars t b.storage f).endBorrow t b.storage, ?_, ⟨?_, ?_, ?_, ?_⟩,
    (hspec.frame.trans hlocal).trans hend.frame⟩
  · unfold World.changeThread
    rw [enterThread_of_currentThread hcurrent, hborrow]
    rfl
  · rw [holds_endBorrow, holds_modifyThreadVars, holds_borrow hborrow]
    exact h.held
  · exact hend.sound ((hspec.sound h.sound).congr (hcalm.bindings t) (hcalm.usage t) (hcalm.nextStorage t))
  · intro s hs
    obtain ⟨hne, hs⟩ := hend.usage s hs
    rw [hcalm.usage, hspec.usage, if_neg hne] at hs
    exact h.unused s hs
  · rw [hend.bindings, hcalm.bindings, hspec.bindings, hb]
    rfl

/-! ## Creation -/

/-- Only a registry that is full refuses the thread, which costs an identity. -/
theorem enroll (h : Idle w t tok bound?) (hp : w.live tok = .ok p) (parent? : Option InstanceId) :
    w.enroll t tok parent? =
      if 0 < p.maxInstances ∧ p.maxInstances ≤ p.registry.size then
        (.error (.instanceLimit p.maxInstances), w.draw)
      else (.ok ⟨w.nextInstance⟩, w.enrolled tok parent?) := by
  have hmay : w.draw.mayTake t .registry = .ok () := mayTake_of_nil h.held .registry
  unfold World.enroll
  rw [hp]
  dsimp only
  rw [show ({ w with nextInstance := w.nextInstance + 1 } : World) = w.draw from rfl, hmay]
  rfl

end Idle

end World

end TieredState
