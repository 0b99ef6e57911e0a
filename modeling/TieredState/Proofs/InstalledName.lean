import TieredState.Proofs.ForeignTexts
import TieredState.Proofs.TextTraffic

/-!
# The name of the installed process

The program name of the installed process has two interfaces. Through the one it is a text, and a call
that fails says why. Through the other it is a C string, and a call that fails answers a number or a null
pointer. Behind both is one text under one lock.

* `lastText_of_trace` — the text is the one that was put in place last, through whichever interface.
* `installed?_of_run`, `installed_there` — the installed process stays installed, and is there.
* `sets_step`, `gives_step` — what a thread is told that sets the name or asks for it as a C string.
* `installed_name` — all of this, from the configuration of the process on.
-/

namespace TieredState

open World Session

variable {f : GlobalText} {tok : Token} {p p' : Process} {s s' : Session} {ctx : Context}

/-! ## What is put in place -/

/-- A call leaves the text that it has written, or else the one before. -/
theorem TextEvent.leaves_eq (e : TextEvent) (text : String) : e.leaves text = e.written?.getD text := by
  obtain ⟨t, call, result⟩ := e
  cases call <;> cases result <;> rfl

theorem Session.world_setTextAt (s : Session) (f : GlobalText) (tok : Token) (text : String) :
    (s.setTextAt text (f.place tok)).world = s.world.modifyProcess tok (f.set text) := by
  cases f <;> rfl

/-- The text that a change makes of the text in hand. -/
def FocusCall.textAfter? (text : String) : FocusCall → Option String
  | .setText new => some new
  | .appendText more => some (text ++ more)
  | _ => none

/-- The text that a call puts in place where a closure has it in hand. -/
def Session.textEdited? (s : Session) (ctx : Context) (f : GlobalText) (tok : Token) : Call → Option String
  | .focus c =>
    if ctx.focus = .text (f.place tok) true then c.textAfter? (s.textAt (f.place tok)) else none
  | _ => none

/-- A call changes the text in hand to the one that it puts in place, or is no change of it. -/
theorem Session.textEdited?_cases (s : Session) (ctx : Context) (f : GlobalText) (tok : Token) (c : Call) :
    editsText ctx f tok c = false ∧ s.textEdited? ctx f tok c = none ∨
      ∃ fc text, c = .focus fc ∧ s.textEdited? ctx f tok c = some text ∧
        (s.focusCall ctx fc).2 = s.setTextAt text (f.place tok) := by
  cases c with
  | focus c =>
    by_cases hfocus : ctx.focus = .text (f.place tok) true
    · cases c with
      | setText new | appendText more =>
        refine .inr ⟨_, _, rfl, if_pos hfocus, ?_⟩
        unfold focusCall
        rw [hfocus]
        rfl
      | _ => exact .inl ⟨rfl, if_pos hfocus⟩
    · refine .inl ⟨?_, if_neg hfocus⟩
      cases c <;> first | rfl | exact decide_eq_false hfocus
  | _ => exact .inl ⟨rfl, rfl⟩

namespace Machine

variable {allowed : Machine → Bool} {m m' m₀ : Machine} {past : List Machine} {c : Config}

/-- The text that the next step puts in place where a closure has it in hand. -/
def textEdited? (m : Machine) (f : GlobalText) (tok : Token) : Option String :=
  m.nextCall?.bind fun r => m.session.textEdited? r.1 f tok r.2

/-- The text that the next step puts in place, by a call that is not refused or in a closure. -/
def textPut? (m : Machine) (f : GlobalText) (tok : Token) : Option String :=
  ((m.textEvent? f tok).bind TextEvent.written?).or (m.textEdited? f tok)

/-- The text that was put in place last by the steps taken at the machines, the latest first, or the
first one of all. -/
def lastText (f : GlobalText) (tok : Token) (first : String) (past : List Machine) : String :=
  (past.filterMap (·.textPut? f tok)).headD first

/-- The text put in place last is that of the latest step that puts one. -/
theorem lastText_cons (f : GlobalText) (tok : Token) (first : String) (m : Machine) (past : List Machine) :
    lastText f tok first (m :: past) = (m.textPut? f tok).getD (lastText f tok first past) := by
  unfold lastText
  rw [List.filterMap_cons]
  cases m.textPut? f tok <;> rfl

/-- A step puts a text in place where a closure has it in hand, or it does not edit it. -/
theorem textEdited?_cases (m : Machine) (f : GlobalText) (tok : Token) :
    m.editsText f tok = false ∧ m.textEdited? f tok = none ∨
      ∃ ctx fc text, m.nextCall? = some (ctx, .focus fc) ∧ m.textEdited? f tok = some text ∧
        ((m.opening ctx).focusCall ctx fc).2 = (m.opening ctx).setTextAt text (f.place tok) := by
  unfold editsText textEdited?
  cases hcall : m.nextCall? with
  | none => exact .inl ⟨rfl, rfl⟩
  | some r =>
    obtain ⟨ctx, c⟩ := r
    -- a thread that is there now has the same text in hand
    have hsame : (m.opening ctx).textEdited? ctx f tok c = m.session.textEdited? ctx f tok c := by
      cases f <;> cases c <;> rfl
    rcases (m.opening ctx).textEdited?_cases ctx f tok c with hnone | ⟨fc, text, rfl, hedited, hfocus⟩
    · rw [hsame] at hnone
      exact .inl hnone
    · rw [hsame] at hedited
      exact .inr ⟨ctx, fc, text, rfl, hedited, hfocus⟩

/-- A step makes the text what it puts in place, and keeps it if it puts none there. -/
theorem text_step (hdrawn : tok.number < m.session.world.nextToken)
    (hp' : m.step.session.world.processes.get? tok = some p') :
    ∃ p, m.session.world.processes.get? tok = some p ∧ f.get p' = (m.textPut? f tok).getD (f.get p) := by
  unfold textPut? textEvent?
  -- a text is put in place by a call on it or by a closure that has it in hand
  rcases m.textEdited?_cases f tok with ⟨hedits, hnone⟩ | ⟨ctx, fc, text, hcall, hedited, hfocus⟩
  · rw [hnone, Option.or_none]
    cases htext : m.textCall? f tok with
    | none => exact keepsText_step hdrawn (fun t text heq => nomatch htext.symm.trans heq) hedits p' hp'
    | some r =>
      obtain ⟨p, hp, hleaves⟩ := (undergoes_step htext).leaves p' hp'
      exact ⟨p, hp, hleaves.trans (TextEvent.leaves_eq _ _)⟩
  · have htext : m.textCall? f tok = none := by
      unfold textCall?
      rw [hcall]
      rfl
    obtain ⟨job, hscene⟩ := act_of_nextCall? hcall nofun
    have hworld : m.act.session.world = ((m.opening ctx).focusCall ctx fc).2.world :=
      congrArg (·.session.world) hscene
    obtain ⟨-, hproc, -, -⟩ := sweep_sub m.act.session m.actor m.act.heldTokens m.act.heldIds
    have hact := hproc tok p' hp'
    rw [hworld, hfocus, world_setTextAt] at hact
    rw [htext, hedited]
    rcases (get?_modifyProcess_eq_some _ _ _).1 hact with ⟨-, p, hp, rfl⟩ | ⟨hne, -⟩
    · exact ⟨p, hp, f.get_set text p⟩
    · exact absurd rfl hne

/-- At every point of a run from the configuration of a process on, the text of the process is the one
that was put in place last. -/
theorem lastText_of_trace (hm : Reachable allowed m₀)
    (hstart : m₀.session.world.processes.get? tok = some (.ofConfig c)) (htrace : Trace allowed m₀ past m)
    (hp : m.session.world.processes.get? tok = some p) :
    f.get p = lastText f tok (f.get (.ofConfig c)) past := by
  have hdated := dated_of_reachable hm
  have hdrawn := (hdated.processes tok _ hstart).1
  induction htrace generalizing p with
  | start =>
    obtain rfl := Option.some.inj (hp.symm.trans hstart)
    rfl
  | @step past m htrace _ ih =>
    have hage := (ages_of_run hdated htrace.run).nextToken
    obtain ⟨q, hq, htext⟩ := text_step (f := f) (Nat.lt_of_lt_of_le hdrawn hage) hp
    rw [htext, lastText_cons, ih hq]
  | redirect _ steps ih =>
    rw [world_redirect] at hp
    exact ih hp

end Machine

/-! ## The installed process -/

/-- A process is installed where none is yet. -/
theorem World.install_of_none {w : World} (h : w.installed? = none) (tok : Token) :
    (w.install tok).2 = { w with installed? := some tok } := by
  unfold install
  rw [h]

/-- A process becomes the installed one only if none is, and if it is there. -/
def World.Installs (w w' : World) : Prop :=
  w'.installed? = w.installed? ∨
    w.installed? = none ∧ ∃ tok p, w'.installed? = some tok ∧ w'.processes.get? tok = some p

namespace Session

/-- What is done at once installs a process only where none is. -/
theorem Served.installs {c : Call} {o : Outcome} (hdone : s.call ctx c = .done o s')
    (h : s.Served ctx c o s') : Installs s.world s'.world := by
  rcases (alters_served hdone h).installed?_cases with
    hsame | ⟨hnone, ⟨config, hworld⟩ | ⟨p, tok, rfl, hproc, hworld⟩⟩
  · exact .inl hsame
  · have hnone' : (s.world.start config).2.installed? = none := hnone
    rw [install_of_none hnone'] at hworld
    rw [hworld]
    exact .inr ⟨hnone, _, _, rfl, (get?_start _ _ _).trans (if_pos rfl)⟩
  · cases hq : s.world.processes.get? tok with
    | none =>
      -- a name whose process is gone installs nothing
      rw [call_of_gone hproc hq rfl] at hdone
      cases hdone
      exact .inl rfl
    | some q =>
      rw [install_of_none hnone] at hworld
      rw [hworld]
      exact .inr ⟨hnone, tok, q, rfl, hq⟩

/-- What is given back when a closure ends leaves the installed process as it is. -/
theorem installed?_undo (s : Session) (b : Body) : (s.undo b).world.installed? = s.world.installed? := by
  unfold undo
  split <;> rfl

/-- Unwinding leaves the installed process as it is. -/
theorem installed?_unwind (s : Session) (stack : List Frame) :
    (Machine.unwind s stack).1.world.installed? = s.world.installed? :=
  Machine.unwind_induction (P := fun s' _ => s'.world.installed? = s.world.installed?)
    (fun s' b _ h => (installed?_undo s' b).trans h) (fun _ _ _ _ h => h) rfl

end Session

namespace Machine

variable {allowed : Machine → Bool} {m m' m₀ : Machine} {past : List Machine} {c : Config} {sc : Scene}

/-- A step installs a process only where none is. -/
theorem installs_turn (h : Turn m sc) : Installs m.session.world sc.session.world := by
  cases h with
  | idle | refused | skips | calls => exact .inl rfl
  | @served ctx c o s _ hdone hserved =>
    have hinstalls : Installs (m.opening ctx).world s.world := hserved.installs hdone
    exact hinstalls
  | @begins ctx p c tok d s job _ _ _ hbegins =>
    have hsame : SameReferences (m.opening ctx) s := sameReferences_begins hbegins
    exact .inl hsame.installed?
  | @opens ctx on? o steps b s job _ henter =>
    have hsame : SameReferences (m.opening ctx) s := sameReferences_entered (entered_of_enter henter)
    exact .inl hsame.installed?
  | @registers ctx on? r steps =>
    exact .inl (sameReferences_registerHook (m.opening ctx) ctx r steps).installed?
  | fails => exact .inl (installed?_unwind _ _)
  | @closes b => exact .inl (installed?_undo _ b)
  | finishes _ _ hdone => exact .inl (sameReferences_finishes (finishes_of_finish hdone)).installed?
  | goesOn _ _ hrunning => exact .inl (sameReferences_finishes (finishes_of_finish hrunning)).installed?

/-- The sweep leaves the installed process as it is. -/
theorem installed?_step (m : Machine) :
    m.step.session.world.installed? = m.act.session.world.installed? :=
  installed?_sweep _ _ _ _

/-- A process that is installed stays so over every step. -/
theorem installed?_of_step (hinstalled : m.session.world.installed? = some tok) :
    m.step.session.world.installed? = some tok := by
  rcases installs_turn (act_turn m) with hsame | ⟨hnone, -⟩
  · exact (installed?_step m).trans (hsame.trans hinstalled)
  · cases hinstalled.symm.trans hnone

/-- The installed process stays installed. -/
theorem installed?_of_run (hinstalled : m.session.world.installed? = some tok) (hrun : Run allowed m m') :
    m'.session.world.installed? = some tok := by
  induction hrun with
  | refl => exact hinstalled
  | step _ _ ih => exact installed?_of_step ih
  | redirect _ steps ih =>
    rw [world_redirect]
    exact ih

/-- It is the sweep at the end of a step that takes processes away, and nothing else. -/
theorem there_act (hp : m.session.world.processes.get? tok = some p) :
    ∃ p', m.act.session.world.processes.get? tok = some p' := by
  have hrehooks := rehooks_act m tok
  generalize hh : m.act.session.world.hooksOf tok = h? at hrehooks
  have hsome : ∃ h, m.act.session.world.hooksOf tok = some h := by
    cases hrehooks with
    | keeps => exact ⟨_, hh.trans (hooksOf_of_get? hp)⟩
    | starts | registers | removes => exact ⟨_, hh⟩
  obtain ⟨h, hh⟩ := hsome
  obtain ⟨p', hp', -⟩ := Option.map_eq_some_iff.1 hh
  exact ⟨p', hp'⟩

/-- The sweep leaves the installed process alone. -/
theorem get?_step_of_installed (hinstalled : m.step.session.world.installed? = some tok) :
    m.step.session.world.processes.get? tok = m.act.session.world.processes.get? tok := by
  have hact : m.act.session.world.installed? = some tok := (installed?_step _).symm.trans hinstalled
  refine (processes_sweep _ _ _ _ tok).trans (if_neg fun hlost => (mem_lost.1 hlost).2 ?_)
  exact List.mem_append_left _ (List.mem_append_right _ (Option.mem_toList.2 hact))

/-- The installed process is there. -/
theorem installed_there (hm : Reachable allowed m) (hinstalled : m.session.world.installed? = some tok) :
    ∃ p, m.session.world.processes.get? tok = some p := by
  obtain ⟨files, environment, fieldCount, script, hrun⟩ := hm
  induction hrun with
  | refl => cases hinstalled
  | @step m' _ _ ih =>
    have hact : m'.act.session.world.installed? = some tok := (installed?_step _).symm.trans hinstalled
    rw [get?_step_of_installed hinstalled]
    rcases installs_turn (act_turn m') with hsame | ⟨-, tok', p, hnew, hp⟩
    · obtain ⟨p, hp⟩ := ih (hsame.symm.trans hact)
      exact there_act hp
    · obtain rfl := Option.some.inj (hnew.symm.trans hact)
      exact ⟨p, hp⟩
  | redirect _ steps ih =>
    rw [world_redirect] at hinstalled ⊢
    exact ih hinstalled

end Machine

/-! ## What a thread is told -/

/-- The process is not shut down, and the thread has no lock whose rank is that of the name's or higher. -/
def World.Serves (w : World) (t : ThreadId) (p : Process) : Prop :=
  p.phase ≠ .shutDown ∧ ∀ l ∈ (w.thread t).held, l.rank < 40

namespace World

variable {w : World} {t : ThreadId}

/-- Where the name is served, a call on it gets the lock. -/
theorem exchange_of_serves (hp : w.processes.get? tok = some p) (h : w.Serves t p) (c : TextCall) :
    w.exchange t tok .programName c = .ok (w.access tok .programName p c) := by
  have hlive : w.live tok = .ok p := live_ok.2 ⟨hp, h.1⟩
  have hmay : w.mayTake t GlobalText.programName.lock = .ok () := mayTake_ok.2 h.2
  unfold exchange
  rw [hlive, hmay]
  rfl

/-- Where it is not served, a call on the name is refused. -/
theorem exchange_of_not_serves (hp : w.processes.get? tok = some p) (h : ¬w.Serves t p) (c : TextCall) :
    ∃ e, w.exchange t tok .programName c = .error e := by
  cases hexchange : w.exchange t tok .programName c with
  | error e => exact ⟨e, rfl⟩
  | ok r =>
    obtain ⟨q, hlive, hrest⟩ := bind_eq_ok.1 hexchange
    obtain ⟨_, hmay, -⟩ := bind_eq_ok.1 hrest
    obtain ⟨hq, hphase⟩ := live_ok.1 hlive
    obtain rfl := Option.some.inj (hp.symm.trans hq)
    exact absurd ⟨hphase, mayTake_ok.1 hmay⟩ h

end World

namespace Session

variable {t : ThreadId}

/-- The name is set if the C string is text and the process serves the thread, and otherwise nothing is
done. -/
theorem foreignSetProgramName_cases (hinstalled : s.world.installed? = some tok)
    (hp : s.world.processes.get? tok = some p) (t : ThreadId) (bytes? : Option (List UInt8)) :
    (∃ bytes name, bytes? = some bytes ∧ Spells bytes name ∧ s.world.Serves t p ∧
      s.foreignSetProgramName t bytes? =
        (0, s.withWorld (s.world.modifyProcess tok (GlobalText.programName.set name)))) ∨
    ¬((∃ bytes name, bytes? = some bytes ∧ Spells bytes name) ∧ s.world.Serves t p) ∧
      s.foreignSetProgramName t bytes? = (-1, s) := by
  unfold foreignSetProgramName
  cases hread : bytes?.bind readForeign with
  | none =>
    refine .inr ⟨?_, rfl⟩
    rintro ⟨⟨bytes, name, rfl, hspells⟩, -⟩
    cases hread.symm.trans (readForeign_eq_some.2 hspells)
  | some name =>
    obtain ⟨bytes, rfl, hname⟩ := Option.bind_eq_some_iff.1 hread
    rw [hinstalled]
    dsimp only
    rw [setProgramName_eq]
    by_cases hserves : s.world.Serves t p
    · rw [exchange_of_serves hp hserves]
      exact .inl ⟨bytes, name, rfl, readForeign_eq_some.1 hname, hserves, rfl⟩
    · obtain ⟨e, hrefused⟩ := exchange_of_not_serves hp hserves (.write name)
      rw [hrefused]
      exact .inr ⟨fun h => hserves h.2, rfl⟩

/-- Foreign code is given the name as far as a C string can hold it. -/
theorem foreignRead_of_serves (hinstalled : s.world.installed? = some tok)
    (hp : s.world.processes.get? tok = some p) (h : s.world.Serves t p) :
    s.foreignRead (fun w tok => w.programName t tok) = foreignText p.programName := by
  unfold foreignRead
  rw [hinstalled, Option.bind_some]
  dsimp only
  rw [programName_eq, exchange_of_serves hp h]
  rfl

/-- Foreign code is given nothing where the name is not served. -/
theorem foreignRead_of_not_serves (hinstalled : s.world.installed? = some tok)
    (hp : s.world.processes.get? tok = some p) (h : ¬s.world.Serves t p) :
    s.foreignRead (fun w tok => w.programName t tok) = none := by
  obtain ⟨e, hrefused⟩ := exchange_of_not_serves hp h .read
  unfold foreignRead
  rw [hinstalled, Option.bind_some]
  dsimp only
  rw [programName_eq, hrefused]
  rfl

end Session

namespace Machine

variable {allowed : Machine → Bool} {m m' m₀ : Machine} {past : List Machine} {c : Config}

theorem serves_opening (m : Machine) (ctx : Context) (p : Process) :
    (m.opening ctx).world.Serves ctx.thread p ↔ m.session.world.Serves ctx.thread p := by
  unfold World.Serves
  rw [thread_opening]

/-- A call through the C interface is done at once. -/
theorem told_foreign {fc : ForeignCall} (hcall : m.nextCall? = some (ctx, .foreign fc)) :
    m.step.told? = some ((m.opening ctx).foreignCall ctx.thread fc).1 ∧
      m.act.session.world = ((m.opening ctx).foreignCall ctx.thread fc).2.world := by
  have hdone : (m.opening ctx).call ctx (.foreign fc) =
      .done ((m.opening ctx).foreignCall ctx.thread fc).1 ((m.opening ctx).foreignCall ctx.thread fc).2 := rfl
  obtain ⟨htold, hscene⟩ := told?_of_done hcall nofun hdone
  have hworld : m.act.session.world = ((m.opening ctx).foreignCall ctx.thread fc).2.world :=
    congrArg (·.session.world) hscene
  exact ⟨htold, hworld⟩

/-- What becomes of a thread's setting the name of the installed process to a C string. -/
structure SetsName (m : Machine) (t : ThreadId) (tok : Token) (p : Process) (bytes? : Option (List UInt8)) :
    Prop where
  told : m.step.told? = some (.ok (.number 0)) ↔
    (∃ bytes name, bytes? = some bytes ∧ Spells bytes name) ∧ m.session.world.Serves t p
  named : ∀ bytes name, bytes? = some bytes → Spells bytes name → m.session.world.Serves t p →
    m.step.session.world.processes.get? tok = some { p with programName := name }
  refused : m.step.told? ≠ some (.ok (.number 0)) →
    m.step.told? = some (.ok (.number (-1))) ∧ m.step.session.world.processes.get? tok = some p

/-- What a thread is given that asks for the name of the installed process as a C string. -/
structure GivesName (m : Machine) (t : ThreadId) (p : Process) : Prop where
  whole : m.session.world.Serves t p → ¬HasZero p.programName →
    m.step.told? = some (.ok (.optionalText (some p.programName))) ∧
      ∀ rest, Spells (utf8 p.programName ++ 0 :: rest) p.programName
  null : ¬m.session.world.Serves t p ∨ HasZero p.programName →
    m.step.told? = some (.ok (.optionalText none))

section Installed

variable (hinstalled : m.session.world.installed? = some tok)
  (hp : m.session.world.processes.get? tok = some p)

include hinstalled

include hp in
/-- A step that sets the name does what is said of it. -/
theorem sets_step {bytes? : Option (List UInt8)}
    (hcall : m.nextCall? = some (ctx, .foreign (.setProgramName bytes?))) :
    m.SetsName ctx.thread tok p bytes? := by
  obtain ⟨htold, hworld⟩ := told_foreign hcall
  -- the process stays installed over the step, so the sweep does not reach it
  have hstep := get?_step_of_installed (installed?_of_step hinstalled)
  rw [hworld] at hstep
  simp only [foreignCall] at htold hstep
  rcases foreignSetProgramName_cases (s := m.opening ctx) hinstalled hp ctx.thread bytes? with
    ⟨bytes, name, rfl, hspells, hserves, hset⟩ | ⟨hnot, hset⟩
  · rw [hset] at htold hstep
    rw [serves_opening] at hserves
    refine ⟨iff_of_true htold ⟨⟨bytes, name, rfl, hspells⟩, hserves⟩, ?_,
      fun hne => absurd htold hne⟩
    intro bytes' name' heq hspells' _
    obtain rfl := Option.some.inj heq
    obtain rfl := Option.some.inj
      ((readForeign_eq_some.2 hspells).symm.trans (readForeign_eq_some.2 hspells'))
    exact hstep.trans ((get?_modifyProcess_eq_some _ _ _).2 (.inl ⟨rfl, p, hp, rfl⟩))
  · rw [hset] at htold hstep
    rw [serves_opening] at hnot
    have hne : m.step.told? ≠ some (.ok (.number 0)) := by
      rw [htold]
      simp
    refine ⟨iff_of_false hne hnot, fun bytes name heq hspells hserves => ?_, fun _ => ⟨htold, ?_⟩⟩
    · exact absurd ⟨⟨bytes, name, heq, hspells⟩, hserves⟩ hnot
    · exact hstep.trans hp

include hp in
/-- A step that asks for the name is given what is said of it. -/
theorem gives_step (hcall : m.nextCall? = some (ctx, .foreign .programName)) :
    m.GivesName ctx.thread p := by
  obtain ⟨htold, -⟩ := told_foreign hcall
  simp only [foreignCall] at htold
  constructor
  · intro hserves hnone
    rw [← serves_opening] at hserves
    rw [foreignRead_of_serves (s := m.opening ctx) hinstalled hp hserves,
      foreignText_of_not_hasZero hnone] at htold
    exact ⟨htold, fun rest => (spells_closed rest).2 hnone⟩
  · intro h
    by_cases hserves : (m.opening ctx).world.Serves ctx.thread p
    · rw [serves_opening] at hserves
      have hzero := h.resolve_left (not_not.2 hserves)
      rw [← serves_opening] at hserves
      rw [foreignRead_of_serves (s := m.opening ctx) hinstalled hp hserves,
        foreignText_of_hasZero hzero] at htold
      exact htold
    · rw [foreignRead_of_not_serves (s := m.opening ctx) hinstalled hp hserves] at htold
      exact htold

/-- Starting a process through the C interface comes to nothing. -/
theorem told_start (hcall : m.nextCall? = some (ctx, .foreign .start)) :
    m.step.told? = some (.ok (.number 0)) ∧
      m.step.session.world.nextToken = m.session.world.nextToken := by
  obtain ⟨htold, hworld⟩ := told_foreign hcall
  have hdefault : (m.opening ctx).world.installed? = some tok := hinstalled
  simp only [foreignCall, foreignStart] at htold hworld
  rw [hdefault] at htold hworld
  have hsame : m.act.session.world = (m.opening ctx).world := hworld
  have hsweep : m.step.session.world.nextToken = m.act.session.world.nextToken := nextToken_sweep _ _ _ _
  rw [hsame] at hsweep
  exact ⟨htold, hsweep⟩

/-- No other process is installed. -/
theorem told_install {n : Name} (hcall : m.nextCall? = some (ctx, .process n .install)) :
    m.step.told? ≠ some (.ok (.flag true)) := by
  have htold : ∀ {o s}, (m.opening ctx).call ctx (.process n .install) = .done o s →
      m.step.told? = some o := fun hdone => (told?_of_done hcall nofun hdone).1
  cases hproc : m.session.process n with
  | error e =>
    have hdone : (m.opening ctx).call ctx (.process n .install) = .done (.error e) (m.opening ctx) := by
      simp only [Session.call]
      rw [process_opening, hproc]
    rw [htold hdone]
    simp
  | ok tok' =>
    cases hq : m.session.world.processes.get? tok' with
    | none =>
      rw [htold (call_of_gone (s := m.opening ctx) hproc hq rfl)]
      simp
    | some q =>
      -- there is an installed process already, and a second one is turned away
      have hdefault : (m.opening ctx).world.installed? = some tok := hinstalled
      rw [htold (call_of_plain (s := m.opening ctx) hproc hq rfl)]
      simp only [plainProcessCall, World.install]
      rw [hdefault]
      simp

end Installed

/-- From the configuration of a process on that has become the installed one, whatever is done in the
session and by whichever thread:

* the program name is the one that was put in place last, through either interface, or the configured
  one;
* the next call that sets it as a C string answers zero exactly when the string is text, the process is
  not shut down and the thread has no lock that ranks as high; then the name is that text, and otherwise
  the answer is one below zero and the process stays as it is;
* the next call that asks for it as a C string gives the whole of it, or a null pointer if it has a zero
  in it or the process does not serve the thread;
* no process is ever installed in place of it. -/
theorem installed_name (hm : Reachable allowed m₀)
    (hstart : m₀.session.world.processes.get? tok = some (.ofConfig c)) (htrace : Trace allowed m₀ past m)
    (hinstalled : m.session.world.installed? = some tok) :
    ∃ p, m.session.world.processes.get? tok = some p ∧
      p.programName = lastText .programName tok c.process.programName past ∧
      (∀ ctx bytes?, m.nextCall? = some (ctx, .foreign (.setProgramName bytes?)) →
        m.SetsName ctx.thread tok p bytes?) ∧
      (∀ ctx, m.nextCall? = some (ctx, .foreign .programName) → m.GivesName ctx.thread p) ∧
      (∀ m', Run allowed m m' → m'.session.world.installed? = some tok ∧
        ∃ p', m'.session.world.processes.get? tok = some p') ∧
      (∀ ctx n, m.nextCall? = some (ctx, .process n .install) →
        m.step.told? ≠ some (.ok (.flag true))) ∧
      ∀ ctx, m.nextCall? = some (ctx, .foreign .start) → m.step.told? = some (.ok (.number 0)) ∧
        m.step.session.world.nextToken = m.session.world.nextToken := by
  have hreach : Reachable allowed m := hm.run htrace.run
  obtain ⟨p, hp⟩ := installed_there hreach hinstalled
  refine ⟨p, hp, lastText_of_trace (f := .programName) hm hstart htrace hp,
    fun ctx bytes? => sets_step hinstalled hp, fun ctx => gives_step hinstalled hp,
    fun m' hrun => ?_, fun ctx n => told_install hinstalled, fun ctx => told_start hinstalled⟩
  have hstays := installed?_of_run hinstalled hrun
  exact ⟨hstays, installed_there (hreach.run hrun) hstays⟩

/-- A program that names the installed process by a C string with something after its zero, and then by a
text that has a zero in it. -/
def namedTwice : Machine :=
  .start default default 0 [
    .call none (.foreign .start),
    .call none (.foreign (.setProgramName (some [101, 109, 98, 0, 99]))),
    .call none (.foreign .programName),
    .call none (.keepInstalled "p"),
    .call none (.process "p" (.setProgramName "x\x00y")),
    .call none (.foreign .programName)]

/-- The first name is given back as far as it goes, and the second not at all. -/
theorem given_back : ∃ p q,
    ((namedTwice.run 1).run 1).session.world.processes.get? ⟨1⟩ = some p ∧ p.programName = "emb" ∧
    ((namedTwice.run 1).run 1).step.told? = some (.ok (.optionalText (some "emb"))) ∧
    ((namedTwice.run 1).run 4).session.world.processes.get? ⟨1⟩ = some q ∧ q.programName = "x\x00y" ∧
    ((namedTwice.run 1).run 4).step.told? = some (.ok (.optionalText none)) := by
  have hm : Reachable orderly (namedTwice.run 1) := .of_run (by decide +kernel)
  have hstart : (namedTwice.run 1).session.world.processes.get? ⟨1⟩ = some (.ofConfig {}) := by rfl
  obtain ⟨p, hp, hname, -, hgives, -⟩ :=
    installed_name hm hstart (.of_run (n := 1) .start (by decide +kernel)) rfl
  obtain ⟨q, hq, hname', -, hgives', -⟩ :=
    installed_name hm hstart (.of_run (n := 4) .start (by decide +kernel)) rfl
  have hemb : p.programName = "emb" := hname.trans (by decide +kernel)
  have hzero : q.programName = "x\x00y" := hname'.trans (by decide +kernel)
  refine ⟨p, q, hp, hemb, ?_, hq, hzero, ?_⟩
  -- the first name has no zero in it, so it is read as a whole
  · have hphase : (((namedTwice.run 1).run 1).session.world.processes.get? ⟨1⟩).map (·.phase) =
      some .startup := by decide +kernel
    rw [hp] at hphase
    have hserves : ((namedTwice.run 1).run 1).session.world.Serves .main p := by
      refine ⟨fun hdown => ?_, fun l hl => nomatch hl⟩
      cases hdown.symm.trans (Option.some.inj hphase)
    have hnone : ¬HasZero p.programName := by
      rw [hemb]
      decide
    have htold := ((hgives { thread := .main } rfl).whole hserves hnone).1
    rw [hemb] at htold
    exact htold
  · refine (hgives' { thread := .main } rfl).null (.inr ?_)
    rw [hzero]
    decide

end Machine

end TieredState
