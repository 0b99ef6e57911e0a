import Mathlib.Logic.ExistsUnique
import TieredState.Proofs.Invariant

/-!
# The views of a binding

What a thread is bound to under a process is told by `bindingState`, and shows in four operations,
`current`, `currentThread`, `enterCurrent` and `enterThread`, each of which looks for the binding and
checks the instance for itself. As long as the process is not shut down they agree: the thread is
unbound for all of them, or bound to the same live instance, or bound to the same dead one.
-/

namespace TieredState

namespace World

/-- The four operations are refused, all for the same reason. -/
structure Refused (w : World) (t : ThreadId) (tok : Token) (e : AccessError) : Prop where
  current : w.current t tok = .error e
  currentThread : w.currentThread t tok = .error e
  enterCurrent : w.enterCurrent t tok = .error e
  enterThread : w.enterThread t tok = .error e

/-- The four operations serve one and the same instance, which is live and of the process, and is
registered unless its teardown is in progress. Only a lock that is held, or a storage in use, can stand
in the way. -/
structure Served (w : World) (out : List InstanceId) (t : ThreadId) (tok : Token) (id : InstanceId) :
    Prop where
  current : w.current t tok = .ok id
  currentThread : ∃ h, w.currentThread t tok = .ok h ∧ h.target = id
  live : ∃ i, w.instances.get? id = some i ∧ i.owner = tok ∧ i.alive = true
  registered : id ∉ out → w.registers tok id = true
  enterCurrent : (∃ w', w.enterCurrent t tok = .ok (id, w')) ∨
    ∃ held, w.enterCurrent t tok = .error (.lockOrder held .instanceVars)
  enterThread : (∃ h w', w.enterThread t tok = .ok (h, w') ∧ h.target = id) ∨
    w.enterThread t tok = .error .reentrant

/-- The state and the operations tell of one and the same binding, `out` being the instances whose
teardown is in progress. -/
def Shows (w : World) (out : List InstanceId) (t : ThreadId) (tok : Token) (s : BindingState) : Prop :=
  w.bindingState t tok = s ∧
    match s with
    | .unbound => w.Refused t tok .noActiveInstance
    | .bound id => w.Served out t tok id
    | .stale id => w.Refused t tok (.instanceDestroyed id)

variable {w : World} {t : ThreadId} {tok : Token} {p : Process} {b : Binding}
  {out : List InstanceId} {uses : List (ThreadId × StorageId)}

/-! ## The three cases -/

/-- A binding that gives neither instance nor thread is refused. -/
theorem refused_of_current {e : AccessError} (hcurrent : w.current t tok = .error e)
    (hthread : w.currentThread t tok = .error e) : w.Refused t tok e where
  current := hcurrent
  currentThread := hthread
  enterCurrent := by
    unfold enterCurrent
    rw [hcurrent]
    rfl
  enterThread := by
    unfold enterThread
    rw [hthread]
    rfl

/-- A thread without a binding shows as unbound. -/
theorem shows_unbound (hp : w.live tok = .ok p) (hb : (w.thread t).binding? tok = none) :
    w.Shows out t tok .unbound := by
  constructor
  · unfold bindingState
    rw [hb]
  · refine refused_of_current ?_ ?_
    · unfold current boundInstance
      rw [hp, hb]
      rfl
    · unfold currentThread boundHandle
      rw [hp, hb]
      rfl

/-- A binding to a dead instance shows as stale. -/
theorem shows_stale (hp : w.live tok = .ok p) (hb : (w.thread t).binding? tok = some b)
    (hdead : w.isLive b.target = false) : w.Shows out t tok (.stale b.target) := by
  have hhandle := handleInstance_dead hdead
  constructor
  · unfold bindingState
    rw [hb]
    dsimp only
    rw [if_neg (Bool.eq_false_iff.1 hdead)]
  · refine refused_of_current ?_ ?_
    · unfold current boundInstance
      rw [hp, hb]
      exact hhandle
    · unfold currentThread boundHandle
      rw [hp, hb]
      dsimp only
      rw [hhandle]
      rfl

/-- A closure on the present instance is one on the instance itself. -/
theorem enterCurrent_of_current {id : InstanceId} (h : w.current t tok = .ok id) :
    w.enterCurrent t tok = (w.enterInstance t id).map (id, ·) := by
  unfold enterCurrent
  rw [h]
  show (w.enterInstance t id >>= fun w' => pure (id, w')) = _
  cases w.enterInstance t id <;> rfl

/-- A closure on the present binding is one on its handle. -/
theorem enterThread_of_currentThread {h : Handle} (hh : w.currentThread t tok = .ok h) :
    w.enterThread t tok = (w.borrow t h).map (h, ·) := by
  unfold enterThread
  rw [hh]
  show (w.borrow t h >>= fun w' => pure (h, w')) = _
  cases w.borrow t h <;> rfl

/-- A closure on a live instance takes the lock of its variables. -/
theorem enterInstance_of_isLive {id : InstanceId} (h : w.isLive id = true) (t : ThreadId) :
    w.enterInstance t id = w.take t .instanceVars := by
  have halive : w.checkAlive id = .ok () := checkAlive_ok.2 h
  unfold enterInstance
  rw [halive]
  rfl

/-- A live instance is refused only for the order of locks. -/
theorem enterInstance_live {id : InstanceId} (h : w.isLive id = true) (t : ThreadId) :
    (∃ w', w.enterInstance t id = .ok w') ∨
      ∃ held, w.enterInstance t id = .error (.lockOrder held .instanceVars) := by
  rw [enterInstance_of_isLive h t]
  unfold take
  split
  · exact .inl ⟨_, rfl⟩
  · next held _ => exact .inr ⟨held, rfl⟩

/-- The storage of a binding is there, and a live instance is refused only while it is in use. -/
theorem borrow_live (hs : (w.thread t).Sound) (hb : (w.thread t).binding? tok = some b)
    (hlive : w.isLive b.target = true) :
    (∃ w', w.borrow t b = .ok w') ∨ w.borrow t b = .error .reentrant := by
  cases hr : w.borrow t b with
  | ok w' => exact .inl ⟨w', rfl⟩
  | error e =>
    rcases borrow_error hr with ⟨-, hnone⟩ | ⟨-, hdead⟩ | ⟨rfl, -⟩
    · have hstored := hs.stored tok b hb
      rw [hnone] at hstored
      cases hstored
    · rw [hlive] at hdead
      cases hdead
    · exact .inr rfl

/-- A binding to a live instance shows as bound. -/
theorem shows_bound (h : Sound w out uses) (hp : w.live tok = .ok p)
    (hb : (w.thread t).binding? tok = some b) (hlive : w.isLive b.target = true) :
    w.Shows out t tok (.bound b.target) := by
  obtain ⟨hget, -⟩ := live_ok.1 hp
  have hhandle := handleInstance_live hlive
  have hcurrent : w.current t tok = .ok b.target := by
    unfold current boundInstance
    rw [hp, hb]
    exact hhandle
  have hthread : w.currentThread t tok = .ok b := by
    unfold currentThread boundHandle
    rw [hp, hb]
    dsimp only
    rw [hhandle]
    rfl
  -- the owner of the instance is the process that the thread is bound under
  obtain ⟨i, hi, halive⟩ := isLive_iff.1 hlive
  have howner : i.owner = tok := (h.bindings.bound t tok b hb).2 i hi
  refine ⟨?_, hcurrent, ⟨b, hthread, rfl⟩, ⟨i, hi, howner, halive⟩, ?_, ?_, ?_⟩
  · unfold bindingState
    rw [hb]
    dsimp only
    rw [if_pos hlive]
  · -- live and not out, so it is housed in the registry of its owner
    intro hout
    subst howner
    have hmem := (h.registry.housed _ i p hi halive hget).resolve_right hout
    exact registers_iff.2 ⟨p, hget, hmem⟩
  · rw [enterCurrent_of_current hcurrent]
    rcases enterInstance_live hlive t with ⟨w', hw⟩ | ⟨held, herr⟩
    · exact .inl ⟨w', by rw [hw]; rfl⟩
    · exact .inr ⟨held, by rw [herr]; rfl⟩
  · rw [enterThread_of_currentThread hthread]
    rcases borrow_live (h.bindings.threads t) hb hlive with ⟨w', hw⟩ | herr
    · exact .inl ⟨b, w', by rw [hw]; rfl, rfl⟩
    · exact .inr (by rw [herr]; rfl)

end World

namespace Machine

variable {m : Machine} {tok : Token} {p : Process}

/-- At every point of a run, and for every thread and every process that is not shut down, the views
of the binding agree. -/
theorem views_agree (hm : Reachable orderly m) (hp : m.session.world.processes.get? tok = some p)
    (hphase : p.phase ≠ .shutDown) (t : ThreadId) :
    ∃! s, m.session.world.Shows m.condemned t tok s := by
  have hsound := sound_of_reachable hm
  have hlive := World.live_ok.2 ⟨hp, hphase⟩
  have hshows : ∃ s, m.session.world.Shows m.condemned t tok s := by
    cases hb : (m.session.world.thread t).binding? tok with
    | none => exact ⟨.unbound, World.shows_unbound hlive hb⟩
    | some b =>
      cases halive : m.session.world.isLive b.target with
      | true => exact ⟨.bound b.target, World.shows_bound hsound.world hlive hb halive⟩
      | false => exact ⟨.stale b.target, World.shows_stale hlive hb halive⟩
  obtain ⟨s, hs⟩ := hshows
  refine ⟨s, hs, ?_⟩
  intro s' hs'
  rw [← hs.1, hs'.1]

/-- The main thread finds its instance destroyed on every way. -/
theorem views_after_destroy : (destroyedByWorker.run 6).session.world.Shows
    (destroyedByWorker.run 6).condemned .main ⟨1⟩ (.stale ⟨1⟩) := by
  have hlive : ((destroyedByWorker.run 6).session.world.processes.get? ⟨1⟩).any
      (fun p => decide (p.phase ≠ .shutDown)) = true := by decide +kernel
  obtain ⟨p, hp, hphase⟩ := (Option.any_eq_true _ _).1 hlive
  obtain ⟨s, hs, -⟩ := views_agree (m := destroyedByWorker.run 6) (.of_run (by decide +kernel)) hp
    (of_decide_eq_true hphase) .main
  have hstale : (destroyedByWorker.run 6).session.world.bindingState .main ⟨1⟩ = .stale ⟨1⟩ := by
    decide +kernel
  obtain rfl := hs.1.symm.trans hstale
  exact hs

end Machine

end TieredState
