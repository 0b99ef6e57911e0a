import TieredState.Proofs.Locks
import TieredState.Proofs.Nesting
import TieredState.Proofs.Uses

/-!
# Locks are held for closures under way

A thread holds the locks of the closures that are under way on it, in the order in which these were
opened, and no others. So what it holds can be read off the stack, and whatever begins and ends
leaves it as it was, be the end a return or an unwinding.

* `balanced_of_reachable` — this is so at every point of every run; the locks of a thread ascend in
  rank.
* `givenBack_locksOf` — giving back what was taken above some frames leaves every thread with the locks
  of these frames.
-/

namespace TieredState

/-! ## The locks of frames -/

/-- The lock that the body's closure holds, if it runs on the thread. -/
def Body.locks (b : Body) (t : ThreadId) : Held :=
  match b.owner with
  | .lock l => if t = b.context.thread then [l] else []
  | _ => []

def Frame.locks (t : ThreadId) : Frame → Held
  | body b => b.locks t
  | dispatch _ _ => []

/-- The locks that frames hold on a thread, the outermost first. -/
def locksOf (frames : List Frame) : Holds := fun t => frames.reverse.flatMap (Frame.locks t)

/-- The locks of the innermost frame were taken last. -/
theorem locksOf_cons (f : Frame) (fs : List Frame) (t : ThreadId) :
    locksOf (f :: fs) t = locksOf fs t ++ f.locks t := by
  unfold locksOf
  rw [List.reverse_cons, List.flatMap_append, List.flatMap_singleton]

/-- The lock of the innermost body was taken last. -/
theorem locksOf_body (b : Body) (fs : List Frame) (t : ThreadId) :
    locksOf (.body b :: fs) t = locksOf fs t ++ b.locks t := locksOf_cons _ fs t

/-- A frame that holds no lock. -/
theorem locksOf_cons_of_nil {f : Frame} (h : ∀ t, f.locks t = []) (fs : List Frame) :
    locksOf (f :: fs) = locksOf fs := by
  funext t
  rw [locksOf_cons, h, List.append_nil]

@[simp] theorem locksOf_dispatch (d : Dispatch) (job : Bool) (fs : List Frame) :
    locksOf (.dispatch d job :: fs) = locksOf fs := locksOf_cons_of_nil (fun _ => rfl) fs

/-- What the outer frames hold was taken before. -/
theorem locksOf_suffix {fs fs' : List Frame} (h : fs' <:+ fs) (t : ThreadId) :
    locksOf fs' t <+: locksOf fs t := by
  obtain ⟨above, rfl⟩ := h
  unfold locksOf
  rw [List.reverse_append, List.flatMap_append]
  exact List.prefix_append _ _

/-- What threads hold when the frames have given back what they hold. -/
def givenBack (holds : Holds) : List Frame → Holds
  | [] => holds
  | .body b :: above => givenBack (relieved holds b) above
  | .dispatch _ _ :: above => givenBack holds above

/-- A frame that ends leaves the locks of those below it. -/
theorem relieved_locksOf (b : Body) (fs : List Frame) :
    relieved (locksOf (.body b :: fs)) b = locksOf fs := by
  funext t
  unfold relieved
  rw [locksOf_body]
  unfold Body.locks
  cases b.owner with
  | lock l =>
    dsimp only
    by_cases heq : t = b.context.thread
    · rw [if_pos heq, if_pos heq, Held.release_append]
    · rw [if_neg heq, if_neg heq, List.append_nil]
  | _ => exact List.append_nil _

/-- Giving back what the inner frames hold leaves what the outer ones do. -/
theorem givenBack_locksOf (above base : List Frame) :
    givenBack (locksOf (above ++ base)) above = locksOf base := by
  induction above with
  | nil => rfl
  | cons f above ih =>
    cases f with
    | body b =>
      unfold givenBack
      rw [List.cons_append, relieved_locksOf]
      exact ih
    | dispatch d job =>
      unfold givenBack
      rw [List.cons_append, locksOf_dispatch]
      exact ih

/-! ## What is held -/

/-- Threads hold the locks of the frames, in ascending order. -/
structure Balanced (holds : Holds) (frames : List Frame) : Prop where
  tracked : holds = locksOf frames
  ascending : ∀ t, (locksOf frames t).Pairwise (·.rank < ·.rank)

namespace Balanced

variable {holds holds' : Holds} {frames frames' : List Frame}

theorem of_eq (h : Balanced holds frames) (hholds : holds' = holds)
    (hlocks : locksOf frames' = locksOf frames) : Balanced holds' frames' where
  tracked := hholds.trans (h.tracked.trans hlocks.symm)
  ascending t := by
    rw [hlocks]
    exact h.ascending t

/-- The innermost frames have ended, and have given back what they held. -/
theorem of_suffix (h : Balanced holds frames) (hends : frames' <:+ frames)
    (hholds : holds' = locksOf frames') : Balanced holds' frames' :=
  ⟨hholds, fun t => (h.ascending t).sublist (locksOf_suffix hends t).sublist⟩

/-- A body that ends gives back its lock, and no other. -/
theorem close {b : Body} (h : Balanced holds (.body b :: frames)) :
    Balanced (relieved holds b) frames := by
  refine h.of_suffix (List.suffix_cons _ _) ?_
  rw [h.tracked]
  exact relieved_locksOf b frames

/-- A closure is opened for which a lock was taken. -/
theorem lock {b : Body} {l : Lock} (h : Balanced holds frames) (howner : b.owner = .lock l)
    (hbelow : ∀ x ∈ holds b.context.thread, x.rank < l.rank)
    (hholds : ∀ t, holds' t =
      if t = b.context.thread then holds b.context.thread ++ [l] else holds t) :
    Balanced holds' (.body b :: frames) := by
  have hlocks : ∀ t, b.locks t = if t = b.context.thread then [l] else [] := by
    intro t
    unfold Body.locks
    rw [howner]
  -- the new lock stands last, so it is enough that it ranks above what is held
  constructor
  · funext t
    rw [hholds, locksOf_body, hlocks, ← h.tracked]
    split
    · next heq => rw [heq]
    · rw [List.append_nil]
  · intro t
    rw [locksOf_body, hlocks]
    split
    · next heq =>
      refine List.pairwise_append.2 ⟨h.ascending t, List.pairwise_singleton _ _, ?_⟩
      intro x hx y hy
      rw [List.mem_singleton.1 hy]
      rw [← h.tracked, heq] at hx
      exact hbelow x hx
    · rw [List.append_nil]
      exact h.ascending t

end Balanced

/-! ## What steps do -/

namespace Session

open World

variable {s s' : Session} {ctx : Context} {steps : List Step} {b : Body} {frames : List Frame}

/-- Unwinding gives back what is held by the frames that it takes away. -/
theorem balanced_unwind {stack : List Frame} (h : Balanced s.world.holds (stack.map Frame.shell)) :
    Balanced (Machine.unwind s stack).1.world.holds
      ((Machine.unwind s stack).2.map Frame.shell) := by
  refine Machine.unwind_induction (P := fun s fs => Balanced s.world.holds (fs.map Frame.shell))
    (fun s b below h => ?_) (fun s d job below h => ?_) h
  · rw [holds_undo]
    exact Balanced.close (b := { b with pending := [], done := [] }) h
  · exact h.of_eq rfl (locksOf_dispatch d job _).symm

/-- A closure holds what was taken for it. -/
theorem balanced_entered (h : Balanced s.world.holds frames) (hent : s.Entered ctx steps b s')
    (job : Bool) : Balanced s'.world.holds (Frame.shell (.body { b with job }) :: frames) := by
  cases hent with
  | lock focus tokens ids htake =>
    obtain ⟨hbelow, hholds⟩ := holds_take htake
    exact h.lock rfl hbelow hholds
  | storage tokens hborrow =>
    exact h.of_eq (holds_borrow hborrow) (locksOf_cons_of_nil (fun _ => rfl) _)
  | attempt => exact h.of_eq rfl (locksOf_cons_of_nil (fun _ => rfl) _)

/-- The end of an operation gives nothing back and takes nothing. -/
theorem Finishes.holds {d : Dispatch} {p : Progress} (h : s.Finishes d p) :
    p.session.world.holds = s.world.holds := by
  have htear := holds_tearDown s.world d.thread d.process d.target
  cases h with
  | create htask =>
    show (s.keepInstance _ d.target).world.holds = _
    rw [world_keepInstance]
  | destroy htask | next htask => exact htear
  | shutdown htask => exact (holds_releaseKey _ _ _).trans htear

end Session

namespace Machine

open World Session

variable {allowed : Machine → Bool} {m m' : Machine}

/-- At this point threads hold the locks of the closures under way. -/
def Balanced (m : Machine) : Prop := TieredState.Balanced m.session.world.holds m.frames

/-- A thread on which nothing is under way holds nothing. -/
theorem locksOf_of_ends {t : ThreadId} (hok : m.settled = true) (hends : m.EndsThread t) :
    locksOf m.frames t = [] := by
  unfold locksOf frames
  refine List.flatMap_eq_nil_iff.2 fun f hf => ?_
  obtain ⟨f, hmem, rfl⟩ := List.mem_map.1 (List.mem_reverse.1 hf)
  have hother : f.thread ≠ t := by
    rintro rfl
    have hnot := List.all_eq_true.1 hok f hmem
    rw [ends_iff.2 hends] at hnot
    cases hnot
  cases f with
  | dispatch d job => rfl
  | body b =>
    show Body.locks b t = []
    unfold Body.locks
    cases b.owner with
    | lock l => exact if_neg (Ne.symm hother)
    | _ => rfl

/-- A turn keeps threads and frames in balance. -/
theorem balanced_turn {sc : Scene} (hturn : Turn m sc) (hok : m.settled = true) (h : m.Balanced) :
    TieredState.Balanced sc.session.world.holds sc.stack := by
  have hopening : ∀ ctx, (m.opening ctx).world.holds = m.session.world.holds :=
    fun ctx => (Steady.touch _ _).holds
  cases hturn with
  | idle => exact h
  | @served ctx c o s hcall hdone hserved =>
    rcases (touches_served hserved).holds with heq | ⟨name, rfl, heq⟩
    · exact h.of_eq (heq.trans (hopening ctx)) rfl
    · -- the thread that is ended held nothing
      refine h.of_eq ?_ rfl
      funext t
      rw [show (Scene.of s m.stack).session.world.holds = s.world.holds from rfl, heq,
        holds_withoutThread, hopening]
      split
      · next hname =>
        have hends : m.EndsThread t := ⟨ctx, name, hcall, hname⟩
        rw [h.tracked, locksOf_of_ends hok hends]
      · rfl
  | @begins ctx p c tok d s job hcall hproc hrunning hbegins =>
    exact h.of_eq ((Steady.begins hbegins).holds.trans (hopening ctx)) (locksOf_dispatch d job _)
  | refused => exact h.of_eq (hopening _) rfl
  | @opens ctx on? o steps b s job hnext hent =>
    have hbefore : TieredState.Balanced (m.opening ctx).world.holds m.frames :=
      h.of_eq (hopening ctx) rfl
    exact balanced_entered hbefore (entered_of_enter hent) job
  | registers hnext => exact h.of_eq ((holds_registerHook _ _ _ _).trans (hopening _)) rfl
  | @fails ctx hnext =>
    have hbefore : TieredState.Balanced (m.opening ctx).world.holds m.frames :=
      h.of_eq (hopening ctx) rfl
    exact balanced_unwind hbefore
  | @closes b below hstack =>
    unfold Balanced frames at h
    rw [hstack] at h
    have hclosed := TieredState.Balanced.close (b := { b with pending := [], done := [] }) h
    exact hclosed.of_eq (holds_undo m.session b) rfl
  | skips hstack =>
    refine h.of_eq rfl ?_
    rw [frames_of_dispatch hstack, locksOf_dispatch]
    exact locksOf_dispatch _ _ _
  | @calls d job below id rest c hstack =>
    refine h.of_eq rfl ?_
    rw [frames_of_dispatch hstack, locksOf_dispatch]
    show locksOf ((c.bodies d ++ _).map Frame.shell) = _
    -- the body of a hook holds no lock
    unfold Callback.bodies
    split
    · exact (locksOf_cons_of_nil (fun _ => rfl) _).trans (locksOf_dispatch _ _ _)
    · exact locksOf_dispatch _ _ _
  | finishes hstack hfin hdone =>
    refine h.of_eq (finishes_of_finish hdone).holds ?_
    rw [frames_of_dispatch hstack, locksOf_dispatch]
    rfl
  | goesOn hstack hfin hrunning =>
    refine h.of_eq (finishes_of_finish hrunning).holds ?_
    rw [frames_of_dispatch hstack, locksOf_dispatch]
    exact locksOf_dispatch _ _ _

/-- A settled step keeps threads and frames in balance. -/
theorem balanced_step (hok : m.settled = true) (h : m.Balanced) : m.step.Balanced := by
  have hact : m.act.Balanced := balanced_turn (act_turn m) hok h
  exact hact.of_eq (holds_sweep _ _ _ _) rfl

/-- Settled runs keep threads and frames in balance. -/
theorem balanced_of_run (h : m.Balanced) (hrun : Run allowed m m')
    (hallowed : ∀ m₁, allowed m₁ = true → m₁.settled = true) : m'.Balanced := by
  induction hrun with
  | refl => exact h
  | step _ hok ih => exact balanced_step (hallowed _ hok) ih
  | redirect _ steps ih =>
    unfold Balanced
    rw [frames_redirect, world_redirect]
    exact ih

/-- At every point of every run threads hold the locks of the closures under way. -/
theorem balanced_of_reachable (hm : Reachable settled m) : m.Balanced := by
  obtain ⟨files, environment, fieldCount, script, hrun⟩ := hm
  exact balanced_of_run ⟨rfl, fun _ => List.Pairwise.nil⟩ hrun fun _ => id

end Machine

end TieredState
