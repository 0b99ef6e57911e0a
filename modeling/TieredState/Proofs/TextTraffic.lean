import Mathlib.Logic.Relation
import TieredState.Proofs.GlobalTexts
import TieredState.Proofs.Nesting

/-!
# No text is lost and none is invented

Any number of threads read and replace a text of a process, while a session goes on: from within
closures and hooks of the session, and by calls that are under way on their own and have other things
happen between their looking at the phase and their getting the lock. `Traffic` is such a session with the
calls under way and a log of those that have returned.

* `Transition` — what can happen next, where nothing but calls writes to the text.
* `transition_cases` — it is nothing to the text, or the return of one call.
* `texts_conserved` — the texts that were written, with the one that the process was configured with, are
  those that were replaced and the one that is there now.
-/

namespace TieredState

namespace TextEvent

/-- The text that a call has put in place. -/
def written? (e : TextEvent) : Option String :=
  match e.call, e.result with
  | .write text, .ok _ => some text
  | _, _ => none

/-- The text that a call has put out of its place and returned. -/
def replaced? (e : TextEvent) : Option String :=
  match e.call, e.result with
  | .write _, .ok old => some old
  | _, _ => none

/-- The texts that were put in place, the latest first. -/
def written (log : List TextEvent) : List String := log.filterMap written?

/-- The texts that were put out of their place, the latest first. -/
def replaced (log : List TextEvent) : List String := log.filterMap replaced?

/-- The text that was put in place last, or the first one of all. -/
def latest (first : String) (log : List TextEvent) : String := (written log).headD first

variable {first : String} {e : TextEvent} {log : List TextEvent}

/-- The latest text is what the latest call leaves. -/
theorem latest_cons (first : String) (e : TextEvent) (log : List TextEvent) :
    latest first (e :: log) = e.leaves (latest first log) := by
  obtain ⟨t, call, result⟩ := e
  cases call <;> cases result <;> rfl

/-- A call that is refused leaves the text as it was. -/
theorem leaves_of_refused (e : TextEvent) (h : e.result.toOption = none) (text : String) :
    e.leaves text = text := by
  obtain ⟨t, call, result⟩ := e
  cases result with
  | ok r => cases h
  | error _ => cases call <;> rfl

/-- Every call has answered the text that was there. -/
inductive Answered (first : String) : List TextEvent → Prop
  | nil : Answered first []
  | cons {e : TextEvent} {log : List TextEvent} (h : Answered first log)
    (hresult : ∀ r, e.result = .ok r → r = latest first log) : Answered first (e :: log)

namespace Answered

/-- Each call is answered with the latest text before it. -/
theorem result (h : Answered first log) {later earlier : List TextEvent}
    (hlog : log = later ++ e :: earlier) {r : String} (hr : e.result = .ok r) :
    r = latest first earlier := by
  induction later generalizing log with
  | nil =>
    subst hlog
    cases h with
    | cons _ hresult => exact hresult r hr
  | cons e' later ih =>
    subst hlog
    cases h with
    | cons h' _ => exact ih h' rfl

/-- Each write puts one text in and takes one out. -/
theorem perm (h : Answered first log) :
    (first :: written log).Perm (latest first log :: replaced log) := by
  induction h with
  | nil => exact .refl _
  | @cons e log _ hresult ih =>
    obtain ⟨t, call, result⟩ := e
    cases call with
    | read => cases result <;> exact ih
    | write text =>
      cases result with
      | error e => exact ih
      | ok old =>
        obtain rfl := hresult old rfl
        exact (List.Perm.swap text first _).trans (ih.cons text)

end Answered

end TextEvent

namespace Machine

/-- The machine with the world changed. -/
def withWorld (m : Machine) (w : World) : Machine := { m with session := m.session.withWorld w }

/-- The call on the text of a process that the next step is, as it will have returned. -/
def textEvent? (m : Machine) (f : GlobalText) (tok : Token) : Option TextEvent :=
  (m.textCall? f tok).map fun r =>
    ⟨r.1, r.2, (m.session.world.exchange r.1 tok f r.2).map (·.1)⟩

end Machine

open World Machine TextEvent

/-- A call on a text that is under way. -/
structure PendingText where
  thread : ThreadId
  call : TextCall
  -- The process was found to be live.
  found : Bool
  deriving DecidableEq, Repr

/-- A session, the calls on a text that are under way beside it, and those that have returned, the
latest first. -/
structure Traffic where
  machine : Machine
  calls : List PendingText := []
  log : List TextEvent := []

namespace Traffic

def world (s : Traffic) : World := s.machine.session.world

/-- What can happen next, as far as the text of the process is concerned. -/
inductive Transition (f : GlobalText) (tok : Token) : Traffic → Traffic → Prop
  /-- The session goes on by a step that does not write to a text in hand. -/
  | step {s : Traffic} (hedits : s.machine.editsText f tok = false) :
    Transition f tok s
      { s with machine := s.machine.step, log := (s.machine.textEvent? f tok).toList ++ s.log }
  /-- The code under way decides on other steps. -/
  | redirect {s : Traffic} (steps : List Step) :
    Transition f tok s { s with machine := s.machine.redirect steps }
  /-- A thread makes a call. -/
  | begins {s : Traffic} (t : ThreadId) (c : TextCall) :
    Transition f tok s { s with calls := ⟨t, c, false⟩ :: s.calls }
  /-- A call finds the process live. -/
  | finds {s : Traffic} {before after : List PendingText} {t : ThreadId} {c : TextCall} {p : Process}
    (hcalls : s.calls = before ++ ⟨t, c, false⟩ :: after) (hlive : s.world.live tok = .ok p) :
    Transition f tok s { s with calls := before ++ ⟨t, c, true⟩ :: after }
  /-- A call finds it shut down. -/
  | refused {s : Traffic} {before after : List PendingText} {t : ThreadId} {c : TextCall} {e : AccessError}
    (hcalls : s.calls = before ++ ⟨t, c, false⟩ :: after) (hlive : s.world.live tok = .error e) :
    Transition f tok s { s with calls := before ++ after, log := ⟨t, c, .error e⟩ :: s.log }
  /-- The thread of a call holds a lock that ranks too high. -/
  | barred {s : Traffic} {before after : List PendingText} {t : ThreadId} {c : TextCall} {e : AccessError}
    (hcalls : s.calls = before ++ ⟨t, c, true⟩ :: after)
    (hmay : s.world.mayTake t f.lock = .error e) :
    Transition f tok s { s with calls := before ++ after, log := ⟨t, c, .error e⟩ :: s.log }
  /-- A call gets the lock, has access, and returns. -/
  | returns {s : Traffic} {before after : List PendingText} {t : ThreadId} {c : TextCall} {p : Process}
    (hcalls : s.calls = before ++ ⟨t, c, true⟩ :: after) (hmay : s.world.mayTake t f.lock = .ok ())
    (hp : s.world.processes.get? tok = some p) :
    Transition f tok s
      { machine := s.machine.withWorld (s.world.access tok f p c).2
        calls := before ++ after
        log := ⟨t, c, .ok (s.world.access tok f p c).1⟩ :: s.log }

variable {f : GlobalText} {tok : Token} {s s' : Traffic}

/-- What holds of a session whose process was configured with the text `first`. -/
structure Consistent (f : GlobalText) (tok : Token) (first : String) (s : Traffic) : Prop where
  dated : s.machine.Dated
  drawn : tok.number < s.world.nextToken
  text : ∀ p, s.world.processes.get? tok = some p → f.get p = latest first s.log
  answered : Answered first s.log

/-- The world ages when a text is asked for or written. -/
theorem ages_access (w : World) (tok : Token) (f : GlobalText) (p : Process) (c : TextCall) :
    Ages w (w.access tok f p c).2 := by
  cases c with
  | read => exact .refl w
  | write text =>
    refine .of_same fun q _ => ?_
    cases f <;> exact ⟨rfl, rfl⟩

/-- Nothing happens to the text, or one call returns that does with it what it is for. -/
theorem transition_cases (h : Transition f tok s s') (hd : s.machine.Dated)
    (hdrawn : tok.number < s.world.nextToken) :
    Ages s.world s'.world ∧ s'.machine.Dated ∧
      (s'.log = s.log ∧ KeepsText f tok s.world s'.world ∨
        ∃ e, s'.log = e :: s.log ∧ Undergoes f tok e s.world s'.world) := by
  cases h with
  | step hedits =>
    obtain ⟨hages, hdated⟩ := ages_step hd
    refine ⟨hages, hdated, ?_⟩
    unfold textEvent?
    -- a step of the session is a call on the text or has nothing to do with it
    cases hcall : s.machine.textCall? f tok with
    | none =>
      refine .inl ⟨rfl, keepsText_step hdrawn (fun t text heq => ?_) hedits⟩
      cases hcall.symm.trans heq
    | some r => exact .inr ⟨_, rfl, undergoes_step hcall⟩
  | redirect steps =>
    have hworld : (s.machine.redirect steps).session.world = s.world := world_redirect _ steps
    have hclosing : (s.machine.redirect steps).closing = s.machine.closing :=
      congrArg View.closing (view_redirect _ steps)
    refine ⟨?_, ?_, .inl ⟨rfl, ?_⟩⟩
    · show Ages s.world (s.machine.redirect steps).session.world
      rw [hworld]
      exact .refl _
    · unfold Machine.Dated
      rw [hclosing, hworld]
      exact hd
    · show KeepsText f tok s.world (s.machine.redirect steps).session.world
      rw [hworld]
      exact .refl _
  | begins t c => exact ⟨.refl _, hd, .inl ⟨rfl, .refl _⟩⟩
  | finds hcalls hlive => exact ⟨.refl _, hd, .inl ⟨rfl, .refl _⟩⟩
  | refused hcalls hlive => exact ⟨.refl _, hd, .inr ⟨_, rfl, undergoes_refused _ _ _ fun _ => id⟩⟩
  | barred hcalls hmay => exact ⟨.refl _, hd, .inr ⟨_, rfl, undergoes_refused _ _ _ fun _ => id⟩⟩
  | @returns before after t c p hcalls hmay hp =>
    have hages := ages_access s.world tok f p c
    exact ⟨hages, World.Dated.ages hd hages, .inr ⟨_, rfl, undergoes_access hp t c⟩⟩

namespace Consistent

variable {first : String}

/-- The calls under way stay consistent over whatever happens next. -/
theorem next (h : Consistent f tok first s) (hnext : Transition f tok s s') :
    Consistent f tok first s' := by
  obtain ⟨hages, hdated, hcases⟩ := transition_cases hnext h.dated h.drawn
  refine ⟨hdated, Nat.lt_of_lt_of_le h.drawn hages.nextToken, ?_, ?_⟩
  · intro p' hp'
    rcases hcases with ⟨hlog, hkeeps⟩ | ⟨e, hlog, hundergoes⟩
    · obtain ⟨p, hp, hsame⟩ := hkeeps p' hp'
      rw [hlog, hsame, h.text p hp]
    · obtain ⟨p, hp, hleaves⟩ := hundergoes.leaves p' hp'
      rw [hlog, hleaves, h.text p hp, latest_cons]
  · rcases hcases with ⟨hlog, -⟩ | ⟨e, hlog, hundergoes⟩
    · rw [hlog]
      exact h.answered
    · rw [hlog]
      refine h.answered.cons fun r hr => ?_
      obtain ⟨p, hp, hanswer⟩ := hundergoes.answers r hr
      rw [hanswer, h.text p hp]

/-- At every point of a session in which nothing else writes to the text. -/
theorem reached (h : Consistent f tok first s) (hrun : Relation.ReflTransGen (Transition f tok) s s') :
    Consistent f tok first s' := by
  induction hrun with
  | refl => exact h
  | tail _ hnext ih => exact ih.next hnext

end Consistent

variable {allowed : Machine → Bool} {m₀ : Machine} {c : Config}

/-- A process as it was configured. -/
theorem consistent_start (hm : Reachable allowed m₀)
    (hp : m₀.session.world.processes.get? tok = some (.ofConfig c)) :
    Consistent f tok (f.get (.ofConfig c)) { machine := m₀ } where
  dated := dated_of_reachable hm
  drawn := ((dated_of_reachable hm).processes tok _ hp).1
  text p hp' := by rw [Option.some.inj (hp'.symm.trans hp)]; rfl
  answered := .nil

/-- A step that is a call on the text answers what its event says. -/
theorem told_of_call? {ctx : Context} {n : Name} {pc : ProcessCall} {call : TextCall} {m : Machine}
    (hcall : m.nextCall? = some (ctx, .process n pc)) (hproc : m.session.process n = .ok tok)
    (hthere : (m.session.world.processes.get? tok).isSome = true) (hf : f.call? pc = some call) :
    ∃ e, m.textEvent? f tok = some e ∧ e.thread = ctx.thread ∧ e.call = call ∧
      m.step.told? = some (Session.answer .text e.result) := by
  obtain ⟨q, hq⟩ := Option.isSome_iff_exists.1 hthere
  have htext : m.textCall? f tok = some (ctx.thread, call) := by
    refine textCall?_eq_some.2 ⟨ctx, _, hcall, rfl, ?_⟩
    unfold Session.textCall?
    dsimp only
    rw [if_pos (Session.process_eq_ok.1 hproc), hf]
  refine ⟨⟨ctx.thread, call, (m.session.world.exchange ctx.thread tok f call).map (·.1)⟩, ?_, rfl, rfl, ?_⟩
  · unfold textEvent?
    rw [htext]
    rfl
  · have hdone : (m.opening ctx).call ctx (.process n pc) = _ :=
      Session.call_of_plain hproc hq (Session.isLifecycle_of_call? hf)
    have hanswer : ((m.opening ctx).plainProcessCall ctx tok q pc).1 = _ :=
      (Session.plainProcessCall_of_call? hf q).1
    have htold : m.step.told? = _ := (told?_of_done hcall nofun hdone).1
    rw [htold, hanswer, exchange_opening]

/-- From the configuration of a process on, whatever closures and hooks the session runs and whichever
threads call in whichever order, if nothing but calls writes to the text:

* the text of the process is the latest that was written, and the first one with those that were written
  are those that were replaced with the one that is there;
* every call that was not refused answered the latest text of its time;
* what refuses a call leaves the text as it is;
* the session tells of a call what the log says of it. -/
theorem texts_conserved (hm : Reachable allowed m₀)
    (hp : m₀.session.world.processes.get? tok = some (.ofConfig c))
    (hrun : Relation.ReflTransGen (Transition f tok) { machine := m₀ } s) :
    let first := f.get (.ofConfig c)
    (∀ p, s.world.processes.get? tok = some p →
      (first :: written s.log).Perm (f.get p :: replaced s.log) ∧ f.get p = latest first s.log) ∧
    (∀ later e earlier r, s.log = later ++ e :: earlier → e.result = .ok r → r = latest first earlier) ∧
    (∀ s' e, Transition f tok s s' → s'.log = e :: s.log → e.result.toOption = none →
      KeepsText f tok s.world s'.world) ∧
    (∀ ctx n pc call, s.machine.nextCall? = some (ctx, .process n pc) →
      s.machine.session.process n = .ok tok → (s.world.processes.get? tok).isSome = true →
      f.call? pc = some call →
      ∃ e, s.machine.textEvent? f tok = some e ∧ e.thread = ctx.thread ∧ e.call = call ∧
        s.machine.step.told? = some (Session.answer .text e.result)) := by
  have h := (consistent_start hm hp).reached hrun
  refine ⟨fun p hp => ⟨?_, h.text p hp⟩, fun later e earlier r hlog hr => h.answered.result hlog hr,
    ?_, ?_⟩
  · rw [h.text p hp]
    exact h.answered.perm
  · intro s' e hnext hlog hrefused
    obtain ⟨-, -, ⟨-, hkeeps⟩ | ⟨e', hlog', hundergoes⟩⟩ := transition_cases hnext h.dated h.drawn
    · exact hkeeps
    · obtain rfl := (List.cons.inj (hlog'.symm.trans hlog)).1
      intro p' hp'
      obtain ⟨p, hp, hleaves⟩ := hundergoes.leaves p' hp'
      refine ⟨p, hp, hleaves.trans ?_⟩
      exact e'.leaves_of_refused hrefused _
  · intro ctx n pc call
    exact told_of_call?

/-- A program in which the main thread names a process while it reads the name, which is refused, and
then again. -/
def renamed : Machine :=
  .start default default 0 [
    .call none (.start "p" none),
    .closure none (.ofShared "p" .programName) [.call none (.process "p" (.setProgramName "x"))],
    .call none (.process "p" (.setProgramName "y"))]

/-- A call of another thread looks at the phase before the closure ends and names the process after it. -/
theorem renamed_between :
    ∃ s p, Relation.ReflTransGen (Transition .programName ⟨1⟩) { machine := renamed.run 1 } s ∧
      s.world.processes.get? ⟨1⟩ = some p ∧
      s.log.map (·.call) = [.write "y", .write "z", .write "x"] ∧
      s.log.map (·.result.toOption) = [some "z", some "tierstate", none] ∧
      ("tierstate" :: written s.log).Perm (p.programName :: replaced s.log) ∧ p.programName = "y" := by
  have hm : Reachable orderly (renamed.run 1) := .of_run (by decide +kernel)
  have hstart : (renamed.run 1).session.world.processes.get? ⟨1⟩ = some (.ofConfig {}) := by rfl
  have hrun := (((((((Relation.ReflTransGen.refl (r := Transition .programName ⟨1⟩)
    (a := { machine := renamed.run 1 })).tail
    (.begins (.worker "a") (.write "z"))).tail
    (.step (by decide +kernel))).tail
    (.finds (List.nil_append _).symm rfl)).tail
    (.step (by decide +kernel))).tail
    (.step (by decide +kernel))).tail
    (.returns (List.nil_append _).symm rfl rfl)).tail
    (.step (by decide +kernel))
  have hconserved := (texts_conserved hm hstart hrun).1
  refine ⟨_, _, hrun, (Option.some_get (by decide +kernel)).symm, by decide +kernel, by decide +kernel,
    (hconserved _ (Option.some_get _).symm).1, ?_⟩
  exact (hconserved _ (Option.some_get _).symm).2.trans (by decide +kernel)

end Traffic

end TieredState
