import TieredState.Proofs.Steady
import TieredState.Proofs.Storages

/-!
# Storages in use

The closures under way on a thread use storages of bindings. A storage is taken into use when its
closure is opened and given back when the closure ends, by whichever way it ends; a storage whose
binding has ended meanwhile goes then. So at every point of every run the storages that are in use
are those of the closures under way, and any other storage belongs to a binding.

* `turn_shift` — what a step of any kind does to what threads keep and to the storages in use.
* `exact_of_run` — storages are in use exactly for the closures under way, at every point of a run.
* `advances_of_run` — a thread that is not ended goes on: what it is bound to later it is bound to
  already, or with a storage that it has yet to draw.
-/

namespace TieredState

namespace World

open Thread

variable {w w' : World} {t : ThreadId} {uses : List (ThreadId × StorageId)}

/-- The slots and the storages of every thread fit together. -/
def ThreadsSound (w : World) : Prop := ∀ t, (w.thread t).Sound

namespace ThreadsSound

/-- Threads stay sound if the one that has changed does. -/
theorem of_local (h : ThreadsSound w) (hl : Local t w w') (ht : (w'.thread t).Sound) :
    ThreadsSound w' := by
  intro t'
  by_cases heq : t' = t
  · exact heq ▸ ht
  · rw [hl.others t' heq]
    exact h t'

theorem empty : ThreadsSound {} := fun _ => sound_empty

theorem of_threads (h : ThreadsSound w) (ht : ∀ t, w'.thread t = w.thread t) : ThreadsSound w' :=
  fun t => ht t ▸ h t

/-- Upkeep keeps threads sound. -/
theorem of_upkeep (h : ThreadsSound w) (hu : ∀ t, Upkeep (w.thread t) (w'.thread t)) :
    ThreadsSound w' :=
  fun t => (hu t).sound (h t)

/-- A thread that is ended keeps nothing, so the others have what they had. -/
theorem withoutThread (h : ThreadsSound w) (t : ThreadId) : ThreadsSound (w.withoutThread t) := by
  refine h.of_local (local_withoutThread w t) ?_
  rw [thread_withoutThread, if_pos rfl]
  exact sound_empty

theorem borrow (h : ThreadsSound w) {handle : Handle} (hb : w.borrow t handle = .ok w') :
    ThreadsSound w' :=
  h.of_local (borrow_ok hb).frame ((borrow_ok hb).sound (h t))

theorem endBorrow (h : ThreadsSound w) (t : ThreadId) (s : StorageId) :
    ThreadsSound (w.endBorrow t s) :=
  h.of_local (endBorrow_spec w t s).frame ((endBorrow_spec w t s).sound (h t))

end ThreadsSound

/-- The storages in use are those that closures under way use, listed in `uses`, each of which has its
storage to itself. Any other storage belongs to a binding. -/
structure Exact (w : World) (uses : List (ThreadId × StorageId)) : Prop where
  tidy : ∀ t, (w.thread t).Tidy
  used : ∀ t s, (t, s) ∈ uses ↔ (w.thread t).usage s = some true
  nodup : uses.Nodup

namespace Exact

theorem empty : Exact {} [] where
  tidy _ := tidy_empty
  used _ _ := ⟨nofun, nofun⟩
  nodup := List.nodup_nil

/-- Upkeep changes no use. -/
theorem of_upkeep (h : Exact w uses) (hu : ∀ t, Upkeep (w.thread t) (w'.thread t)) :
    Exact w' uses where
  tidy t := (hu t).tidy (h.tidy t)
  used t s := (h.used t s).trans ((hu t).keepsUses s).symm
  nodup := h.nodup

theorem of_threads (h : Exact w uses) (ht : ∀ t, w'.thread t = w.thread t) : Exact w' uses :=
  h.of_upkeep fun t => by
    rw [ht]
    exact .refl _

/-- A thread without closures under way may end. -/
theorem withoutThread (h : Exact w uses) (hidle : ∀ s, (t, s) ∉ uses) :
    Exact (w.withoutThread t) uses where
  tidy t' := by
    rw [thread_withoutThread]
    split
    · exact tidy_empty
    · exact h.tidy t'
  used t' s := by
    rw [thread_withoutThread]
    split
    · next heq => exact ⟨fun hmem => absurd (heq ▸ hmem) (hidle s), nofun⟩
    · exact h.used t' s
  nodup := h.nodup

theorem borrow (h : Exact w uses) {handle : Handle} (hb : w.borrow t handle = .ok w') :
    Exact w' ((t, handle.storage) :: uses) := by
  have hspec := borrow_ok hb
  refine ⟨fun t' => (advances_borrow hspec t').2 (h.tidy t'), ?_, List.nodup_cons.2 ⟨?_, h.nodup⟩⟩
  · intro t' s
    rw [List.mem_cons]
    by_cases heq : t' = t
    · subst heq
      rw [hspec.usage, h.used, Prod.mk.injEq]
      split
      · next hs => exact ⟨fun _ => rfl, fun _ => .inl ⟨rfl, hs⟩⟩
      · next hs => exact ⟨fun hor => hor.resolve_left fun hand => hs hand.2, .inr⟩
    · rw [hspec.frame.others t' heq, h.used]
      exact ⟨fun hor => hor.resolve_left fun hpair => heq (Prod.mk.inj hpair).1, .inr⟩
  · -- a storage that is free is used by no closure
    intro hmem
    have hused := (h.used t handle.storage).1 hmem
    rw [hspec.free] at hused
    cases hused

theorem endBorrow {s : StorageId} (h : Exact w ((t, s) :: uses)) : Exact (w.endBorrow t s) uses := by
  obtain ⟨hnot, hnodup⟩ := List.nodup_cons.1 h.nodup
  have hspec := endBorrow_spec w t s
  refine ⟨fun t' => (advances_endBorrow w t s t').2 (h.tidy t'), fun t' s' => ⟨?_, ?_⟩, hnodup⟩
  · intro hmem
    refine usage_endBorrow_of_ne ?_ ((h.used t' s').1 (List.mem_cons_of_mem _ hmem))
    intro heq
    exact hnot (heq ▸ hmem)
  · -- what is in use afterwards was in use before, by another closure
    intro hused
    have hother : (t', s') ≠ (t, s) ∧ (w.thread t').usage s' = some true := by
      by_cases heq : t' = t
      · subst heq
        obtain ⟨hne, hold⟩ := hspec.usage s' hused
        exact ⟨fun hpair => hne (Prod.mk.inj hpair).2, hold⟩
      · rw [hspec.frame.others t' heq] at hused
        exact ⟨fun hpair => heq (Prod.mk.inj hpair).1, hused⟩
    exact (List.mem_cons.1 ((h.used t' s').2 hother.2)).resolve_left hother.1

end Exact

end World

/-! ## What a step does to threads -/

namespace Session

open World Thread

variable {s s' : Session} {ctx : Context}

/-- A call that is done at once ends a thread, or treats every thread as operations on its bindings
do. -/
theorem upkeep_touches {c : Call} (h : s.Touches ctx c s') (hs : s.world.ThreadsSound) :
    (∀ t, Upkeep (s.world.thread t) (s'.world.thread t)) ∨
      ∃ name, c = .endThread name ∧
        ∀ t, s'.world.thread t = (s.world.withoutThread (.worker name)).thread t := by
  cases h with
  | steady hsteady =>
    refine .inl fun t => ?_
    rw [hsteady.threads]
    exact .refl _
  | vars f hfocus => exact .inl fun t => (calm_modifyThreadVars _ _ _ _).upkeep t
  | endThread hsteady => exact .inr ⟨_, rfl, fun t => hsteady.threads t⟩
  | bind hproc hkeep hworld hsteady =>
    refine .inl fun t => ?_
    rw [hworld]
    exact upkeep_bind (hs t) _ _ _
  | release hproc hrelease => exact .inl (upkeep_release hrelease)
  | shutdown hproc hbegin =>
    obtain ⟨p, -, -, rfl⟩ := beginShutdown_ok hbegin
    exact .inl (upkeep_releaseKey (s.world.modifyProcess _ _) _ _)

/-- The end of an operation is upkeep for every thread. -/
theorem Finishes.upkeep {d : Dispatch} {p : Progress} (h : s.Finishes d p) (t : ThreadId) :
    Upkeep (s.world.thread t) (p.session.world.thread t) := by
  have htear := upkeep_tearDown s.world d.thread d.process d.target t
  cases h with
  | create htask =>
    show Upkeep (s.world.thread t) ((s.keepInstance _ d.target).world.thread t)
    rw [world_keepInstance]
    exact .refl _
  | destroy htask | next htask => exact htear
  | shutdown htask => exact htear.trans (upkeep_releaseKey _ _ _ t)

end Session

namespace Machine

open World Thread Session

variable {allowed : Machine → Bool} {m m' : Machine} {v v' : View} {t : ThreadId}

/-- What a step of the machine `m` can do to what threads keep and to the storages in use. -/
inductive Shift (m : Machine) (v v' : View) : Prop
  | upkeep (huses : v'.uses = v.uses)
    (h : ∀ t, Upkeep (v.world.thread t) (v'.world.thread t)) : Shift m v v'
  | endThread {t : ThreadId} (hends : m.EndsThread t) (huses : v'.uses = v.uses)
    (h : ∀ t', v'.world.thread t' = (v.world.withoutThread t).thread t') : Shift m v v'
  | borrow {w : World} {t : ThreadId} {h : Handle} (hw : ∀ t, w.thread t = v.world.thread t)
    (hborrow : w.borrow t h = .ok v'.world) (huses : v'.uses = (t, h.storage) :: v.uses) : Shift m v v'
  | endUses {w : World} {ended : List (ThreadId × StorageId)} (hw : ∀ t, w.thread t = v.world.thread t)
    (huses : v.uses = ended ++ v'.uses) (hended : EndUses w ended v'.world) : Shift m v v'

/-- Nothing happens to threads. -/
theorem Shift.of_threads (huses : v'.uses = v.uses)
    (h : ∀ t, v'.world.thread t = v.world.thread t) : Shift m v v' :=
  .upkeep huses fun t => by
    rw [h]
    exact .refl _

/-- The closure on top has its use first. -/
theorem uses_of_body {b : Body} {below : List Frame} (hstack : m.stack = .body b :: below) :
    m.uses = Frame.uses (.body b) ++ below.flatMap Frame.uses := by
  unfold uses
  rw [hstack]
  rfl

/-- Dispatches use no storage. -/
theorem uses_of_dispatch {d : Dispatch} {job : Bool} {below : List Frame}
    (hstack : m.stack = .dispatch d job :: below) : m.uses = below.flatMap Frame.uses := by
  unfold uses
  rw [hstack]
  rfl

/-- A step of any kind does one of these things to threads. -/
theorem turn_shift {sc : Scene} (h : Turn m sc) (hs : m.session.world.ThreadsSound) :
    Shift m m.view sc.view := by
  cases h with
  | idle => exact .of_threads (by rw [view_scene]) fun t => by rw [view_scene]
  | @served ctx c o s hcall hdone hserved =>
    rw [Scene.view_of]
    rcases upkeep_touches (touches_served hserved) (hs.of_threads (thread_opening m ctx)) with
      hu | ⟨name, rfl, hthreads⟩
    · refine .upkeep rfl fun t => ?_
      have hupkeep := hu t
      rw [thread_opening] at hupkeep
      exact hupkeep
    · refine .endThread ⟨ctx, name, hcall, rfl⟩ rfl fun t => ?_
      rw [thread_withoutThread, hthreads, thread_withoutThread, thread_opening]
      rfl
  | @begins ctx p c tok d s job hcall hproc hrunning hbegins =>
    rw [Scene.view_of]
    exact .of_threads rfl fun t => ((Steady.begins hbegins).threads t).trans (thread_opening m ctx t)
  | @refused ctx step hnext =>
    rw [Scene.view_of]
    exact .of_threads rfl (thread_opening m ctx)
  | @opens ctx on? o steps b s job hnext hent =>
    rw [Scene.view_of]
    cases entered_of_enter hent with
    | lock focus tokens ids htake =>
      refine .upkeep rfl fun t => ?_
      have hupkeep := (calm_take htake).upkeep t
      rw [thread_opening] at hupkeep
      exact hupkeep
    | storage tokens hborrow => exact .borrow (thread_opening m ctx) hborrow rfl
    | attempt => exact .of_threads rfl (thread_opening m ctx)
  | @registers ctx on? r steps hnext =>
    rw [Scene.view_of]
    refine .upkeep rfl fun t => ?_
    have hupkeep := (calm_registerHook (m.opening ctx) ctx r steps).upkeep t
    rw [thread_opening] at hupkeep
    exact hupkeep
  | @fails ctx hnext =>
    obtain ⟨ended, huses, hend⟩ := endUses_unwind (m.opening ctx) m.stack
    rw [Scene.view_of]
    exact .endUses (thread_opening m ctx) huses hend
  | @closes b below hstack =>
    -- a body that ends gives back what its closure took, and nothing else
    have hundo := endUses_undo m.session b (.done (.refl _))
    rw [List.append_nil] at hundo
    rw [Scene.view_of]
    exact .endUses (fun _ => rfl) (uses_of_body hstack) hundo
  | skips hstack hpending hnone =>
    rw [Scene.view_of]
    exact .of_threads (uses_of_dispatch hstack).symm fun _ => rfl
  | @calls d job below id rest c hstack hpending hcallback =>
    rw [Scene.view_of]
    -- the body of a hook uses no storage
    refine .of_threads ?_ fun _ => rfl
    show _ = m.uses
    rw [uses_of_dispatch hstack]
    unfold Callback.bodies
    split <;> rfl
  | finishes hstack hfin hdone =>
    rw [Scene.view_of]
    exact .upkeep (uses_of_dispatch hstack).symm (finishes_of_finish hdone).upkeep
  | goesOn hstack hfin hrunning =>
    rw [Scene.view_of]
    exact .upkeep (uses_of_dispatch hstack).symm (finishes_of_finish hrunning).upkeep

/-! ## Steps that end only idle threads -/

/-- The next step ends the thread. -/
def ends (m : Machine) (t : ThreadId) : Bool :=
  match m.nextCall? with
  | some (_, .endThread name) => decide (t = .worker name)
  | _ => false

/-- Whether the next step ends the thread can be computed. -/
theorem ends_iff : m.ends t = true ↔ m.EndsThread t := by
  unfold ends EndsThread
  constructor
  · intro hends
    split at hends
    · next ctx name hcall => exact ⟨ctx, name, hcall, of_decide_eq_true hends⟩
    · cases hends
  · rintro ⟨ctx, name, hcall, rfl⟩
    rw [hcall]
    exact decide_eq_true rfl

/-- The thread that the next step ends is another one. -/
theorem ne_of_endThread {ctx : Context} {name : String} (hcall : m.nextCall? = some (ctx, .endThread name))
    (ht : m.ends t = false) : t ≠ .worker name := by
  rintro rfl
  have hends : m.ends (.worker name) = true := ends_iff.2 ⟨ctx, name, hcall, rfl⟩
  rw [ht] at hends
  cases hends

/-- A thread that the next step ends has nothing under way, as no thread ends from within what it
runs. -/
def settled (m : Machine) : Bool := m.stack.all fun f => !m.ends f.thread

/-- The next step is settled and does not end the thread `t`. -/
def lasting (t : ThreadId) (m : Machine) : Bool := m.settled && !m.ends t

/-- A step that a thread lasts through is settled. -/
theorem settled_of_lasting (hok : m.lasting t = true) : m.settled = true := by
  unfold lasting at hok
  exact (Bool.and_eq_true_iff.1 hok).1

/-- A thread does not end in a step that it lasts through. -/
theorem not_ends_of_lasting (hok : m.lasting t = true) : ¬ m.EndsThread t := by
  unfold lasting at hok
  have hnot := (Bool.and_eq_true_iff.1 hok).2
  rw [← ends_iff]
  intro hends
  rw [hends] at hnot
  cases hnot

/-- Closures run on the threads of their frames. -/
theorem thread_of_uses {s : StorageId} (hmem : (t, s) ∈ m.uses) : ∃ f ∈ m.stack, f.thread = t := by
  obtain ⟨f, hf, hin⟩ := List.mem_flatMap.1 hmem
  refine ⟨f, hf, ?_⟩
  cases f with
  | dispatch d job => cases hin
  | body b =>
    unfold Frame.uses at hin
    dsimp only at hin
    split at hin
    · exact (congrArg Prod.fst (List.mem_singleton.1 hin)).symm
    · cases hin

/-- A thread with a closure on one of its bindings does not end. -/
theorem not_ends_of_uses {s : StorageId} (hok : m.settled = true) (hmem : (t, s) ∈ m.uses) :
    ¬ m.EndsThread t := by
  obtain ⟨f, hf, rfl⟩ := thread_of_uses hmem
  unfold settled at hok
  have hnot := List.all_eq_true.1 hok f hf
  rw [← ends_iff]
  intro hends
  rw [hends] at hnot
  cases hnot

/-! ## Runs -/

/-- When closures end, the uses of those that are left stay exact. -/
theorem EndUses.exact {w w' : World} {ended uses : List (ThreadId × StorageId)}
    (he : EndUses w ended w') (hw : World.Exact w (ended ++ uses)) : World.Exact w' uses := by
  induction he with
  | done hc => exact hw.of_upkeep hc.upkeep
  | calm hc _ ih => exact ih (hw.of_upkeep hc.upkeep)
  | storage _ ih => exact ih hw.endBorrow

/-- When closures end, threads stay sound. -/
theorem EndUses.threadsSound {w w' : World} {ended : List (ThreadId × StorageId)}
    (he : EndUses w ended w') (hs : w.ThreadsSound) : w'.ThreadsSound := by
  induction he with
  | done hc => exact hs.of_upkeep hc.upkeep
  | calm hc _ ih => exact ih (hs.of_upkeep hc.upkeep)
  | storage _ ih => exact ih (hs.endBorrow _ _)

/-- When closures end, no binding is made thereby. -/
theorem EndUses.advances {w w' : World} {ended : List (ThreadId × StorageId)}
    (he : EndUses w ended w') (t : ThreadId) : Advances (w.thread t) (w'.thread t) := by
  induction he with
  | done hc => exact (hc.upkeep t).advances
  | calm hc _ ih => exact (hc.upkeep t).advances.trans ih
  | @storage w w' t' s uses _ ih => exact (advances_endBorrow w t' s t).1.trans ih

/-- A step keeps threads sound. -/
theorem Shift.threadsSound (hshift : Shift m v v') (hs : v.world.ThreadsSound) :
    v'.world.ThreadsSound := by
  cases hshift with
  | upkeep huses hu => exact hs.of_upkeep hu
  | endThread hends huses hthreads => exact (hs.withoutThread _).of_threads hthreads
  | borrow hw hborrow huses => exact (hs.of_threads hw).borrow hborrow
  | endUses hw huses hended => exact hended.threadsSound (hs.of_threads hw)

/-- A step keeps uses exact, where a thread that ends has none. -/
theorem Shift.exact (hshift : Shift m v v') (hidle : ∀ t s, m.EndsThread t → (t, s) ∉ v.uses)
    (he : World.Exact v.world v.uses) : World.Exact v'.world v'.uses := by
  cases hshift with
  | upkeep huses hu =>
    rw [huses]
    exact he.of_upkeep hu
  | endThread hends huses hthreads =>
    rw [huses]
    exact (he.withoutThread fun s => hidle _ s hends).of_threads hthreads
  | borrow hw hborrow huses =>
    rw [huses]
    exact (he.of_threads hw).borrow hborrow
  | endUses hw huses hended =>
    rw [huses] at he
    exact hended.exact (he.of_threads hw)

/-- A step lets a thread go on that does not end in it. -/
theorem Shift.advances (hshift : Shift m v v') (ht : ¬ m.EndsThread t) :
    Advances (v.world.thread t) (v'.world.thread t) := by
  cases hshift with
  | upkeep huses hu => exact (hu t).advances
  | @endThread t' hends huses hthreads =>
    have hne : t ≠ t' := by
      rintro rfl
      exact ht hends
    rw [hthreads, thread_withoutThread, if_neg hne]
    exact .refl _
  | borrow hw hborrow huses => exact hw t ▸ (advances_borrow (borrow_ok hborrow) t).1
  | endUses hw huses hended => exact hw t ▸ hended.advances t

/-- What threads keep fits together at every point of a run, whatever its steps are. -/
theorem threadsSound_of_run (hs : m.session.world.ThreadsSound) (hrun : Run allowed m m') :
    m'.session.world.ThreadsSound := by
  induction hrun with
  | refl => exact hs
  | @step m' _ _ ih =>
    have hshift := turn_shift (act_turn m') ih
    rw [view_scene] at hshift
    exact (hshift.threadsSound ih).of_upkeep (upkeep_sweep _ _ _ _)
  | redirect _ steps ih =>
    rw [world_redirect]
    exact ih

/-- At every point of every run slots and storages fit together. -/
theorem threadsSound_of_reachable (hm : Reachable allowed m) : m.session.world.ThreadsSound := by
  obtain ⟨files, environment, fieldCount, script, hrun⟩ := hm
  have hstart : (start files environment fieldCount script).session.world.ThreadsSound := .empty
  exact threadsSound_of_run hstart hrun

/-- Storages are in use exactly for the closures under way. -/
def Exact (m : Machine) : Prop := m.session.world.Exact m.uses

/-- A settled step keeps uses exact. -/
theorem exact_step (hs : m.session.world.ThreadsSound) (he : m.Exact) (hok : m.settled = true) :
    m.step.Exact := by
  have hshift := turn_shift (act_turn m) hs
  rw [view_scene] at hshift
  have hact : m.act.Exact :=
    hshift.exact (fun t s hends hmem => not_ends_of_uses hok hmem hends) he
  exact hact.of_upkeep (upkeep_sweep _ _ _ _)

/-- Runs of settled steps keep uses exact. -/
theorem exact_of_run (hs : m.session.world.ThreadsSound) (he : m.Exact) (hrun : Run settled m m') :
    m'.Exact := by
  induction hrun with
  | refl => exact he
  | step hrun hok ih => exact exact_step (threadsSound_of_run hs hrun) ih hok
  | @redirect m' _ steps ih =>
    have huses : (m'.redirect steps).uses = m'.uses := congrArg View.uses (view_redirect m' steps)
    unfold Exact
    rw [world_redirect, huses]
    exact ih

/-- At every point of such a run a storage is in use exactly for a closure that is under way. -/
theorem exact_of_reachable (hm : Reachable settled m) : m.Exact := by
  obtain ⟨files, environment, fieldCount, script, hrun⟩ := hm
  have hstart : (start files environment fieldCount script).Exact := World.Exact.empty
  exact exact_of_run .empty hstart hrun

/-- In a step that it lasts through, a thread has gone on. -/
theorem advances_step (hs : m.session.world.ThreadsSound) (hok : m.lasting t = true) :
    Advances (m.session.world.thread t) (m.step.session.world.thread t) := by
  have hshift := turn_shift (act_turn m) hs
  rw [view_scene] at hshift
  have hact := hshift.advances (not_ends_of_lasting hok)
  exact hact.trans (upkeep_sweep _ _ _ _ t).advances

/-- A thread that is not ended goes on. -/
theorem advances_of_run (hs : m.session.world.ThreadsSound) (hrun : Run (lasting t) m m') :
    Advances (m.session.world.thread t) (m'.session.world.thread t) := by
  induction hrun with
  | refl => exact .refl _
  | step hrun hok ih => exact ih.trans (advances_step (threadsSound_of_run hs hrun) hok)
  | redirect _ steps ih =>
    rw [world_redirect]
    exact ih

end Machine

end TieredState
