import TieredState.Proofs.Turn

/-!
# What is under way stays under way

A step changes the stack at its top only. So as long as the stack gets no lower than it was when the
code at hand took a step, all that was under way then still is, with whatever has begun since above
it. And when the stack does get lower, that is since more was unwound, and what is left is the outer
part of what was under way.

* `frames_of_keeps` — the frames at the beginning are the outer ones, as long as none of them ends.
* `frames_of_leaves` — a step that ends one of them leaves the outer part of them.
-/

namespace TieredState.Machine

/-- What is under way, without the steps of bodies. -/
def frames (m : Machine) : List Frame := m.stack.map Frame.shell

variable {allowed : Machine → Bool} {m m' : Machine} {sc : Scene} {base fs fs' : List Frame}

@[simp] theorem frames_redirect (m : Machine) (steps : List Step) :
    (m.redirect steps).frames = m.frames :=
  congrArg Scene.stack (scene_redirect m steps)

@[simp] theorem length_frames (m : Machine) : m.frames.length = m.stack.length := List.length_map _

/-- Unwinding leaves the outer part of the stack. -/
theorem unwind_suffix (s : Session) (stack : List Frame) : (unwind s stack).2 <:+ stack :=
  unwind_induction (P := fun _ fs => fs <:+ stack)
    (fun _ _ _ h => (List.suffix_cons _ _).trans h) (fun _ _ _ _ h => (List.suffix_cons _ _).trans h)
    (List.suffix_refl _)

/-! ## Steps -/

/-- How a step changes what is under way. -/
inductive Reframes : List Frame → List Frame → Prop
  /-- Nothing ends, and something may begin. -/
  | begins {fs : List Frame} (above : List Frame) : Reframes fs (above ++ fs)
  /-- The innermost ends, or is unwound with others. -/
  | ends {fs fs' : List Frame} (h : fs' <:+ fs) : Reframes fs fs'
  /-- An operation goes on, and may call a hook. -/
  | goesOn {d d' : Dispatch} {job : Bool} {below : List Frame} (above : List Frame) :
    Reframes (.dispatch d job :: below) (above ++ .dispatch d' job :: below)

/-- A dispatch on top is the innermost frame. -/
theorem frames_of_dispatch {d : Dispatch} {job : Bool} {below : List Frame}
    (hstack : m.stack = .dispatch d job :: below) :
    m.frames = .dispatch d job :: below.map Frame.shell := by
  unfold frames
  rw [hstack]
  rfl

/-- A turn changes frames in one of these ways. -/
theorem reframes_turn (h : Turn m sc) : Reframes m.frames sc.stack := by
  -- frames come on top, or go from the top, or the dispatch on top calls its next hook
  cases h with
  | idle => exact .begins []
  | served => exact .begins []
  | @begins ctx p c tok d => exact .begins [.dispatch d _]
  | refused => exact .begins []
  | @opens ctx on? o steps b s job => exact .begins [Frame.shell (.body { b with job })]
  | registers => exact .begins []
  | fails => exact .ends ((unwind_suffix _ _).map _)
  | closes hstack =>
    unfold frames
    rw [hstack]
    exact .ends (List.suffix_cons _ _)
  | skips hstack =>
    rw [frames_of_dispatch hstack]
    exact .goesOn []
  | @calls d job below id rest c hstack =>
    rw [frames_of_dispatch hstack]
    unfold Scene.of
    dsimp only
    rw [List.map_append]
    exact .goesOn _
  | finishes hstack =>
    rw [frames_of_dispatch hstack]
    exact .ends (List.suffix_cons _ _)
  | goesOn hstack =>
    rw [frames_of_dispatch hstack]
    exact .goesOn []

/-- A step changes frames in one of these ways. -/
theorem reframes_step (m : Machine) : Reframes m.frames m.step.frames := reframes_turn (act_turn m)

/-- Frames of which the innermost is that of code at hand, and not of an operation. -/
def CodeOnTop (fs : List Frame) : Prop := ∀ d job below, fs ≠ .dispatch d job :: below

/-- A step is taken by the code on top. -/
theorem codeOnTop_of_next? {r : Context × Step} (h : m.next? = some r) : CodeOnTop m.frames := by
  intro d job below hframes
  unfold next? at h
  unfold frames at hframes
  cases hstack : m.stack with
  | nil =>
    rw [hstack] at hframes
    cases hframes
  | cons f fs =>
    rw [hstack] at h hframes
    cases f with
    | body b => cases hframes
    | dispatch d' job' => cases h

/-- Of frames that have code on top, some end or none do. -/
theorem Reframes.suffix_or (h : Reframes fs fs') (hbase : base <:+ fs) (hcode : CodeOnTop base) :
    base <:+ fs' ∨ fs' <:+ base := by
  cases h with
  | begins above => exact .inl (hbase.trans (List.suffix_append _ _))
  | ends hends => exact List.suffix_or_suffix_of_suffix hbase hends
  | @goesOn d d' job below above =>
    -- the operation that goes on is above the frames, since they have code on top
    rcases List.suffix_cons_iff.1 hbase with heq | hbelow
    · exact absurd heq (hcode d job below)
    · exact .inl ((hbelow.trans (List.suffix_cons _ _)).trans (List.suffix_append _ _))

/-! ## Runs -/

/-- The next step leaves at least `n` frames under way. -/
def keeps (n : Nat) (m : Machine) : Bool := decide (n ≤ m.step.stack.length)

/-- As long as no step of a run gets below the frames that it began with, they stay as they are. -/
theorem frames_of_keeps (hcode : CodeOnTop m.frames) (hrun : Run allowed m m')
    (hkeeps : ∀ m₁, allowed m₁ = true → m₁.keeps m.stack.length = true) : m.frames <:+ m'.frames := by
  induction hrun with
  | refl => exact List.suffix_refl _
  | @step m₁ hrun hallowed ih =>
    rcases (reframes_step m₁).suffix_or ih hcode with hstay | hleave
    · exact hstay
    · have hle : m.stack.length ≤ m₁.step.stack.length := of_decide_eq_true (hkeeps m₁ hallowed)
      rw [← length_frames, ← length_frames] at hle
      exact hleave.eq_of_length_le hle ▸ List.suffix_refl _
  | redirect _ steps ih =>
    rw [frames_redirect]
    exact ih

/-- A step that gets below the frames leaves the outer part of them. -/
theorem frames_of_leaves (hcode : CodeOnTop base) (hbase : base <:+ m.frames)
    (hleaves : m.step.stack.length < base.length) : m.step.frames <:+ base := by
  rcases (reframes_step m).suffix_or hbase hcode with hstay | hleave
  · have hle := hstay.length_le
    rw [length_frames] at hle
    omega
  · exact hleave

/-! ## What is handed over -/

/-- The outcome that was handed over last, to the body on top or in a report. -/
def told? (m : Machine) : Option Outcome :=
  match m.stack with
  | .body b :: _ => b.done.head?
  | .dispatch _ _ :: _ => none
  | [] => m.reports.head?.map (·.outcome)

/-- An outcome that is handed on is told to the code on top. -/
theorem told?_deliver (h : CodeOnTop m.frames) (o : Outcome) : (m.deliver o).told? = some o := by
  obtain ⟨session, stack, script, reports⟩ := m
  cases stack with
  | nil => rfl
  | cons f below =>
    cases f with
    | body b => rfl
    | dispatch d job => exact absurd rfl (h d job _)

/-- A closure that is refused and a call that is done at once hand over an outcome, and leave what is
under way as it is. -/
theorem told?_act {ctx : Context} {step : Step} {o : Outcome} {s : Session}
    (hnext : m.next? = some (ctx, step))
    (h : (∃ on? op steps f, step = .closure on? op steps ∧ o = .error f ∧ s = m.opening ctx ∧
        (m.opening ctx).enter ctx op steps = .error f) ∨
      ∃ on? c, step = .call on? c ∧ c ≠ .fail ∧ (m.opening ctx).call ctx c = .done o s) :
    m.act.told? = some o ∧ m.act.scene = .of s m.stack := by
  obtain ⟨m₁, hsession, hstack, -, hact⟩ := act_of_next? hnext
  have hcode : CodeOnTop m₁.frames := by
    unfold frames
    rw [hstack]
    exact codeOnTop_of_next? hnext
  rcases h with ⟨on?, op, steps, f, rfl, rfl, rfl, henter⟩ | ⟨on?, c, rfl, hfail, hcall⟩
  · have hdeliver : m.act = m₁.deliver (.error f) := by
      rw [hact]
      unfold perform
      dsimp only
      rw [hsession, henter]
    rw [hdeliver, scene_deliver]
    exact ⟨told?_deliver hcode _, scene_of_parts hsession hstack⟩
  · have hdeliver : m.act = ({ m₁ with session := s } : Machine).deliver o := by
      rw [hact, perform_call hfail, hsession, hcall]
      rfl
    rw [hdeliver, scene_deliver]
    exact ⟨told?_deliver (m := { m₁ with session := s }) hcode _, Scene.of_congr hstack s⟩

/-- A call that is done at once hands over its outcome. -/
theorem told?_of_done {ctx : Context} {c : Call} {o : Outcome} {s : Session}
    (h : m.nextCall? = some (ctx, c)) (hfail : c ≠ .fail)
    (hdone : (m.opening ctx).call ctx c = .done o s) :
    m.act.told? = some o ∧ m.act.scene = .of s m.stack := by
  obtain ⟨on?, hnext⟩ := next?_of_nextCall? h
  exact told?_act hnext (.inr ⟨on?, c, rfl, hfail, hdone⟩)

end TieredState.Machine
