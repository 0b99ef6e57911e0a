import TieredState.Proofs.Accesses
import TieredState.Proofs.BindingStates
import TieredState.Proofs.Episodes
import TieredState.Proofs.Trace

/-!
# How closures were opened

What a closure has in hand, the code in it can change. Which closure that is can be read off the frames,
and how it was opened off the past of the run: it was opened at the latest point at which no more was
under way than is below it now. What was attempted in the meantime has in hand what the closure around
it has, and a hook has nothing in hand.

* `provenance_of_history` — every closure under way was opened where its past says so.
* `openedAt_of_focus` — so code that has something in hand runs in a closure of which this is known.
* `Trace.since` — from where a closure was opened the run goes on without ending it.
-/

namespace TieredState

namespace Session

open World

variable {s s' : Session} {ctx : Context} {steps : List Step}

/-! ## What a closure has in hand -/

/-- The body of a closure, by how it is opened. -/
inductive Opens (s : Session) (ctx : Context) (steps : List Step) : Opening → Body → Prop
  | reference {n : Name} {id : InstanceId} (hname : s.instanceNamed ctx n = .ok id) :
    Opens s ctx steps (.ofInstance n) (lockedBody ctx .instanceVars (.instanceVars id) [] [id] steps)
  | current {p : Name} {tok : Token} {id : InstanceId} (hproc : s.process p = .ok tok)
    (hbound : s.world.bindingState ctx.thread tok = .bound id) :
    Opens s ctx steps (.ofCurrent p) (lockedBody ctx .instanceVars (.instanceVars id) [tok] [id] steps)
  | thread {p : Name} {tok : Token} {h : Handle} (hproc : s.process p = .ok tok)
    (hbinding : (s.world.thread ctx.thread).binding? tok = some h) :
    Opens s ctx steps (.ofThread p) (borrowedBody ctx h [tok] steps)
  | handle {n : Name} {h : Handle} (hname : s.handleNamed ctx.thread n = .ok h)
    (hfree : (s.world.thread ctx.thread).usage h.storage = some false) :
    Opens s ctx steps (.ofHandle n) (borrowedBody ctx h [] steps)
  | shared {p : Name} {tok : Token} (shared : Shared) :
    Opens s ctx steps (.ofShared p shared)
      (lockedBody ctx (sharedFocus tok shared).1 (sharedFocus tok shared).2 [tok] [] steps)
  | cell {o : Opening} {l : Lock} (id : CellId) (writable : Bool) :
    Opens s ctx steps o (lockedBody ctx l (.text (.cell id) writable) [] [] steps)

/-- The current instance is the one that the thread is bound to. -/
theorem bindingState_of_current {w : World} {t : ThreadId} {tok : Token} {id : InstanceId}
    (h : w.current t tok = .ok id) : w.bindingState t tok = .bound id := by
  obtain ⟨_, -, h⟩ := bind_eq_ok.1 h
  unfold boundInstance at h
  cases hb : (w.thread t).binding? tok with
  | none =>
    rw [hb] at h
    cases h
  | some b =>
    rw [hb] at h
    rw [bindingState_some hb]
    unfold handleInstance at h
    dsimp only at h
    split at h
    · next hlive => rw [if_pos hlive, Except.ok.inj h]
    · cases h

/-- A closure that is entered is opened. -/
theorem opens_of_enter {o : Opening} {b : Body} (h : s.enter ctx o steps = .ok (b, s'))
    (ho : o ≠ .attempt) : s.Opens ctx steps o b := by
  unfold enter at h
  -- what is given is read off the check that the opening has passed
  cases o with
  | ofInstance n =>
    obtain ⟨id, hname, h⟩ := bind_eq_ok.1 h
    obtain ⟨w, -, rfl, -⟩ := opened_map_ok h
    exact .reference hname
  | ofCurrent p =>
    obtain ⟨tok, hproc, h⟩ := bind_eq_ok.1 h
    obtain ⟨id, w, hw, rfl, -⟩ := opened_ok h
    obtain ⟨id', hcurrent, hw⟩ := bind_eq_ok.1 hw
    obtain ⟨w', -, hw⟩ := bind_eq_ok.1 hw
    obtain ⟨rfl, -⟩ := Prod.mk.inj (Except.ok.inj hw)
    exact .current hproc (bindingState_of_current hcurrent)
  | ofThread p =>
    obtain ⟨tok, hproc, h⟩ := bind_eq_ok.1 h
    obtain ⟨handle, w, hw, rfl, -⟩ := opened_ok h
    obtain ⟨handle', hcurrent, hw⟩ := bind_eq_ok.1 hw
    obtain ⟨w', -, hw⟩ := bind_eq_ok.1 hw
    obtain ⟨rfl, -⟩ := Prod.mk.inj (Except.ok.inj hw)
    exact .thread hproc (Machine.currentThread_ok hcurrent).2
  | ofHandle n =>
    obtain ⟨handle, hname, h⟩ := bind_eq_ok.1 h
    obtain ⟨w, hborrow, rfl, -⟩ := opened_map_ok h
    exact .handle hname (borrow_ok hborrow).free
  | ofShared p shared =>
    obtain ⟨tok, -, h⟩ := bind_eq_ok.1 h
    obtain ⟨w, -, rfl, -⟩ := opened_map_ok h
    exact .shared shared
  | ofCell c =>
    obtain ⟨⟨id, cell⟩, -, h⟩ := bind_eq_ok.1 h
    dsimp only at h
    split at h
    · cases h
    · obtain ⟨w, -, rfl, -⟩ := opened_map_ok h
      exact .cell id true
  | ofCellRead c =>
    obtain ⟨⟨id, cell⟩, -, h⟩ := bind_eq_ok.1 h
    dsimp only at h
    split at h
    · cases h
    · obtain ⟨w, -, rfl, -⟩ := opened_map_ok h
      exact .cell id false
  | attempt => exact absurd rfl ho

end Session

namespace Machine

open World Session

variable {allowed : Machine → Bool} {m m₀ m₁ : Machine} {past : List Machine} {ctx : Context}
  {sc : Scene} {fs below : List Frame} {b : Body} {n : Nat}

/-! ## Closures under way -/

/-- The closure that the code on top runs in, with the frames below it. What is attempted runs in the
closure around it. -/
def closureOf : List Frame → Option (Body × List Frame)
  | .body b :: below => if b.owner = .attempt then closureOf below else some (b, below)
  | _ => none

/-- The latest point of the past at which no more than `n` frames were under way. -/
def begunAt? (n : Nat) (past : List Machine) : Option Machine :=
  past.find? fun m => decide (m.stack.length ≤ n)

/-- While more frames are under way, nothing is begun there. -/
theorem begunAt?_cons_of_lt (h : n < m.stack.length) (past : List Machine) :
    begunAt? n (m :: past) = begunAt? n past :=
  List.find?_cons_of_neg (by simpa using h)

/-- A frame is begun when those below it are all that is under way. -/
theorem begunAt?_cons_self (m : Machine) (past : List Machine) :
    begunAt? m.stack.length (m :: past) = some m :=
  List.find?_cons_of_pos (by simp)

/-- The closure with the body `b`, above the frames `below`, was opened at `m₀` by the code with the
context `ctx`. -/
structure OpenedAt (past : List Machine) (b : Body) (below : List Frame) (m₀ : Machine)
    (ctx : Context) (o : Opening) : Prop where
  begun : begunAt? below.length past = some m₀
  frames : m₀.frames = below
  closure : o ≠ .attempt
  step : ∃ on? steps, m₀.next? = some (ctx, .closure on? o steps) ∧
    ∃ b₀ s, (m₀.opening ctx).enter ctx o steps = .ok (b₀, s) ∧
      ∃ job, b = { b₀ with job, pending := [], done := [] }

/-- The frames of closures were begun where their past says so. -/
inductive Provenance (past : List Machine) : List Frame → Prop
  | nil : Provenance past []
  | dispatch {d : Dispatch} {job : Bool} {below : List Frame} (h : Provenance past below) :
    Provenance past (.dispatch d job :: below)
  /-- A hook has nothing in hand, and neither has what it attempts. -/
  | idle {b : Body} {below : List Frame} (hfocus : b.context.focus = .nothing)
    (h : Provenance past below) : Provenance past (.body b :: below)
  | attempt {b b' : Body} {below : List Frame} (howner : b.owner = .attempt)
    (hcontext : b.context = b'.context) (h : Provenance past (.body b' :: below)) :
    Provenance past (.body b :: .body b' :: below)
  | closure {b : Body} {below : List Frame} {m₀ : Machine} {ctx : Context} {o : Opening}
    (howner : b.owner ≠ .attempt) (hopened : OpenedAt past b below m₀ ctx o)
    (h : Provenance past below) : Provenance past (.body b :: below)

namespace Provenance

/-- Outer frames were begun where their past says so. -/
theorem tail {f : Frame} (h : Provenance past (f :: below)) : Provenance past below := by
  cases h with
  | dispatch h => exact h
  | idle _ h => exact h
  | attempt _ _ h => exact h
  | closure _ _ h => exact h

/-- The frames below any other were begun where their past says so. -/
theorem suffix (h : Provenance past fs) (hsuffix : below <:+ fs) : Provenance past below := by
  obtain ⟨above, rfl⟩ := hsuffix
  induction above with
  | nil => exact h
  | cons f above ih => exact ih h.tail

/-- As long as a frame stays, where it was begun is past. -/
theorem later (h : Provenance past fs) (hlength : fs.length ≤ m.stack.length) :
    Provenance (m :: past) fs := by
  induction h with
  | nil => exact .nil
  | dispatch _ ih => exact .dispatch (ih (Nat.le_of_succ_le hlength))
  | idle hfocus _ ih => exact .idle hfocus (ih (Nat.le_of_succ_le hlength))
  | attempt howner hcontext _ ih => exact .attempt howner hcontext (ih (Nat.le_of_succ_le hlength))
  | closure howner hopened _ ih =>
    refine .closure howner ⟨?_, hopened.frames, hopened.closure, hopened.step⟩
      (ih (Nat.le_of_succ_le hlength))
    -- the frame is itself under way, so the new point has more frames than are below it
    rw [begunAt?_cons_of_lt hlength]
    exact hopened.begun

end Provenance

/-- Code that has something in hand runs in the body on top. -/
theorem body_of_focus {step : Step} (hnext : m.next? = some (ctx, step))
    (hfocus : ctx.focus ≠ .nothing) : ∃ b below, m.frames = .body b :: below ∧ b.context = ctx := by
  -- code on another thread has nothing in hand, so the step is on its own thread
  have hown : ∀ ctx' : Context, (contextOf ctx' step).1 = ctx → ctx' = ctx := by
    intro ctx' heq
    unfold contextOf at heq
    split at heq
    · rw [← heq] at hfocus
      exact absurd rfl hfocus
    · exact heq
  unfold next? at hnext
  split at hnext
  · next b below hstack =>
    obtain ⟨step', -, heq⟩ := Option.map_eq_some_iff.1 hnext
    obtain ⟨hctx, rfl⟩ := Prod.mk.inj heq
    refine ⟨{ b with pending := [], done := [] }, below.map Frame.shell, ?_, hown _ hctx⟩
    unfold frames
    rw [hstack]
    rfl
  · cases hnext
  · obtain ⟨step', -, heq⟩ := Option.map_eq_some_iff.1 hnext
    obtain ⟨hctx, rfl⟩ := Prod.mk.inj heq
    rw [← hown _ hctx] at hfocus
    exact absurd rfl hfocus

/-- A closure that is opened was begun where it is opened. -/
theorem provenance_opens {on? : Option String} {o : Opening} {steps : List Step} {s : Session}
    (job : Bool) (hnext : m.next? = some (ctx, .closure on? o steps))
    (henter : (m.opening ctx).enter ctx o steps = .ok (b, s)) (h : Provenance (m :: past) m.frames) :
    Provenance (m :: past) (Frame.shell (.body { b with job }) :: m.frames) := by
  by_cases ho : o = .attempt
  · -- an attempt has in hand what the code has that makes it
    subst ho
    obtain ⟨rfl, -⟩ := Prod.mk.inj (Except.ok.inj henter)
    by_cases hfocus : ctx.focus = .nothing
    · exact .idle hfocus h
    · obtain ⟨b', below, hframes, hcontext⟩ := body_of_focus hnext hfocus
      rw [hframes] at h ⊢
      exact .attempt rfl hcontext.symm h
  · have howner : b.owner ≠ .attempt := by
      cases opens_of_enter henter ho <;> simp [lockedBody, borrowedBody]
    refine .closure howner ⟨?_, rfl, ho, on?, steps, hnext, b, s, henter, job, rfl⟩ h
    rw [length_frames]
    exact begunAt?_cons_self m past

/-- Frames that a turn leaves or begins were begun where the past says so. -/
theorem provenance_turn (h : Provenance past m.frames) (hturn : Turn m sc) :
    Provenance (m :: past) sc.stack := by
  have hsame : Provenance (m :: past) m.frames := h.later (Nat.le_of_eq (length_frames m))
  have hdispatch : ∀ {d d' : Dispatch} {job : Bool} {below : List Frame},
      m.stack = .dispatch d job :: below →
        Provenance (m :: past) (.dispatch d' job :: below.map Frame.shell) := by
    intro d d' job below hstack
    rw [frames_of_dispatch hstack] at hsame
    exact .dispatch hsame.tail
  cases hturn with
  | idle => exact hsame
  | served => exact hsame
  | begins => exact .dispatch hsame
  | refused => exact hsame
  | opens job hnext henter => exact provenance_opens job hnext henter hsame
  | registers => exact hsame
  | fails =>
    -- what an unwinding leaves was under way before
    exact hsame.suffix ((unwind_suffix _ _).map _)
  | @closes b below hstack =>
    have hframes : m.frames = Frame.shell (.body b) :: below.map Frame.shell := by
      unfold frames
      rw [hstack]
      rfl
    rw [hframes] at hsame
    exact hsame.tail
  | skips hstack => exact hdispatch hstack
  | @calls d job below id rest c hstack =>
    have hbelow : Provenance (m :: past)
        (.dispatch { d with pending := rest } job :: below.map Frame.shell) := hdispatch hstack
    unfold Scene.of Callback.bodies
    dsimp only
    -- the code of a hook begins with nothing in hand
    split
    · exact .idle rfl hbelow
    · exact hbelow
  | @finishes d job below _ _ hstack =>
    have hbelow : Provenance (m :: past) (.dispatch d job :: below.map Frame.shell) :=
      hdispatch hstack
    exact hbelow.tail
  | goesOn hstack => exact hdispatch hstack

/-- At every point of every run frames were begun where the past says so. -/
theorem provenance_of_history (hm : History allowed past m) : Provenance past m.frames := by
  obtain ⟨files, environment, fieldCount, script, htrace⟩ := hm
  induction htrace with
  | start => exact .nil
  | @step past m _ _ ih => exact provenance_turn ih (act_turn m)
  | redirect _ steps ih =>
    rw [frames_redirect]
    exact ih

/-- The closure that code runs in is among its frames. -/
theorem suffix_of_closureOf (h : closureOf fs = some (b, below)) : .body b :: below <:+ fs := by
  induction fs with
  | nil => cases h
  | cons f fs ih =>
    cases f with
    | dispatch d job => cases h
    | body b' =>
      unfold closureOf at h
      split at h
      · exact (ih h).trans (List.suffix_cons _ _)
      · obtain ⟨rfl, rfl⟩ := Prod.mk.inj (Option.some.inj h)
        exact List.suffix_refl _

/-- Whoever has something in hand has it by a closure, be it from within attempts. -/
theorem Provenance.closureOf (h : Provenance past fs) (hfs : fs = .body b :: below)
    (hfocus : b.context.focus ≠ .nothing) :
    ∃ b' below' m₀ ctx₀ o, Machine.closureOf fs = some (b', below') ∧ b'.context = b.context ∧
      OpenedAt past b' below' m₀ ctx₀ o := by
  induction h generalizing b below with
  | nil => cases hfs
  | dispatch _ _ => cases hfs
  | idle hnothing _ _ =>
    obtain ⟨heq, rfl⟩ := List.cons.inj hfs
    obtain rfl := Frame.body.inj heq
    exact absurd hnothing hfocus
  | attempt howner hcontext _ ih =>
    obtain ⟨heq, rfl⟩ := List.cons.inj hfs
    obtain rfl := Frame.body.inj heq
    rw [hcontext] at hfocus
    obtain ⟨b', below', m₀, ctx₀, o, hclosure, hcontext', hopened⟩ := ih rfl hfocus
    refine ⟨b', below', m₀, ctx₀, o, ?_, hcontext'.trans hcontext.symm, hopened⟩
    rw [← hclosure]
    exact if_pos howner
  | closure howner hopened _ _ =>
    obtain ⟨heq, rfl⟩ := List.cons.inj hfs
    obtain rfl := Frame.body.inj heq
    exact ⟨_, _, _, _, _, if_neg howner, rfl, hopened⟩

/-- Code that has something in hand runs in a closure that was opened for it. -/
theorem openedAt_of_focus {step : Step} (hm : History allowed past m)
    (hnext : m.next? = some (ctx, step)) (hfocus : ctx.focus ≠ .nothing) :
    ∃ b below m₀ ctx₀ o, closureOf m.frames = some (b, below) ∧ b.context = ctx ∧
      OpenedAt past b below m₀ ctx₀ o := by
  obtain ⟨b, below, hframes, rfl⟩ := body_of_focus hnext hfocus
  exact (provenance_of_history hm).closureOf hframes hfocus

/-! ## Since a closure was opened -/

/-- From the latest point at which no more than `n` frames were under way, a run goes on with more. -/
theorem Trace.since (h : Trace allowed m₀ past m) (hlength : n < m.stack.length)
    (hbegun : begunAt? n past = some m₁) :
    ∃ past₁, Trace allowed m₀ past₁ m₁ ∧ allowed m₁ = true ∧
      Run (fun m => allowed m && m.keeps (n + 1)) m₁.step m := by
  induction h with
  | start => cases hbegun
  | @step past m htrace hallowed ih =>
    -- either the step was taken with more under way, or it is the one that was looked for
    by_cases hlt : n < m.stack.length
    · rw [begunAt?_cons_of_lt hlt] at hbegun
      obtain ⟨past₁, htrace₁, hallowed₁, hrun⟩ := ih hlt hbegun
      have hkeeps : m.keeps (n + 1) = true := decide_eq_true hlength
      exact ⟨past₁, htrace₁, hallowed₁, hrun.step (Bool.and_eq_true_iff.2 ⟨hallowed, hkeeps⟩)⟩
    · have hfound : begunAt? n (m :: past) = some m := List.find?_cons_of_pos (by simpa using hlt)
      obtain rfl := Option.some.inj (hfound.symm.trans hbegun)
      exact ⟨past, htrace, hallowed, .refl⟩
  | @redirect past m htrace steps ih =>
    have hlength' : n < m.stack.length := by
      rw [← length_frames, frames_redirect, length_frames] at hlength
      exact hlength
    obtain ⟨past₁, htrace₁, hallowed₁, hrun⟩ := ih hlength' hbegun
    exact ⟨past₁, htrace₁, hallowed₁, hrun.redirect steps⟩

/-- The same with what led to there. -/
theorem OpenedAt.since {o : Opening} (h : OpenedAt past b below m₁ ctx o) (hm : History allowed past m)
    (hlength : below.length < m.stack.length) :
    ∃ past₁, History allowed past₁ m₁ ∧ allowed m₁ = true ∧
      Run (fun m => allowed m && m.keeps (below.length + 1)) m₁.step m := by
  obtain ⟨files, environment, fieldCount, script, htrace⟩ := hm
  obtain ⟨past₁, htrace₁, hallowed, hrun⟩ := htrace.since hlength h.begun
  exact ⟨past₁, ⟨files, environment, fieldCount, script, htrace₁⟩, hallowed, hrun⟩

end Machine

end TieredState
