import TieredState.Proofs.Confinement
import TieredState.Proofs.Flags

/-!
# Texts behind locks

A process has two texts that any thread may read and replace, each behind a lock of its own. They are
one thing here: `GlobalText` is which of the two, and `TextCall` what is asked of it, through a method or
through the C interface.

* `World.exchange` — a call on a text: the phase is looked at, the lock is asked for, and the text is
  read or replaced.
* `undergoes_step` — what a step does that is such a call.
* `keepsText_step` — every other step keeps the text, unless it writes to it past the call.
-/

namespace TieredState

/-- A text of a process that has a lock of its own. -/
inductive GlobalText where
  | shPath
  | programName
  deriving DecidableEq, Repr

/-- What is asked of a text. -/
inductive TextCall where
  | read
  | write (text : String)
  deriving DecidableEq, Repr

namespace GlobalText

def lock : GlobalText → Lock
  | shPath => .shPath
  | programName => .programName

def get (f : GlobalText) (p : Process) : String :=
  match f with
  | shPath => p.shPath
  | programName => p.programName

def set (f : GlobalText) (text : String) (p : Process) : Process :=
  match f with
  | shPath => { p with shPath := text }
  | programName => { p with programName := text }

/-- The text as a closure has it in hand. -/
def place (f : GlobalText) (tok : Token) : TextPlace :=
  match f with
  | shPath => .shPath tok
  | programName => .programName tok

/-- What a call on a process asks of the text. -/
def call? (f : GlobalText) (c : ProcessCall) : Option TextCall :=
  match f, c with
  | shPath, .shPath => some .read
  | shPath, .setShPath text => some (.write text)
  | programName, .programName => some .read
  | programName, .setProgramName text => some (.write text)
  | _, _ => none

/-- What a call through the C interface asks of the text of the installed process. -/
def foreignCall? (f : GlobalText) (c : ForeignCall) : Option TextCall :=
  match f, c with
  | shPath, .shPath => some .read
  | programName, .programName => some .read
  | programName, .setProgramName bytes? => (bytes?.bind Session.readForeign).map .write
  | _, _ => none

@[simp] theorem get_set (f : GlobalText) (text : String) (p : Process) : f.get (f.set text p) = text := by
  cases f <;> rfl

end GlobalText

/-- A call on a text that has returned. -/
structure TextEvent where
  thread : ThreadId
  call : TextCall
  result : Except AccessError String

/-- The text that a call leaves behind. One that is refused leaves it as it was. -/
def TextEvent.leaves (e : TextEvent) (text : String) : String :=
  match e.call, e.result with
  | .write new, .ok _ => new
  | _, _ => text

namespace World

variable {w w' w'' : World} {t : ThreadId} {tok tok' : Token} {f : GlobalText}

/-! ## Calls on a text -/

/-- What a call on the text answers and does, once it has the lock. -/
def access (w : World) (tok : Token) (f : GlobalText) (p : Process) : TextCall → String × World
  | .read => (f.get p, w)
  | .write text => (f.get p, w.modifyProcess tok (f.set text))

/-- A call on the text of a process. A write gives the text that it replaces. -/
def exchange (w : World) (t : ThreadId) (tok : Token) (f : GlobalText) (c : TextCall) :
    Except AccessError (String × World) := do
  let p ← w.live tok
  w.mayTake t f.lock
  return w.access tok f p c

/-- To ask for the path of the shell is a read of that text. -/
theorem shPath_eq (w : World) (t : ThreadId) (tok : Token) :
    w.shPath t tok = (w.exchange t tok .shPath .read).map (·.1) := by
  unfold shPath exchange
  cases w.live tok with
  | error e => rfl
  | ok p => cases hmay : w.mayTake t .shPath <;> simp [GlobalText.lock, hmay] <;> rfl

/-- To ask for the name of the program is a read of that text. -/
theorem programName_eq (w : World) (t : ThreadId) (tok : Token) :
    w.programName t tok = (w.exchange t tok .programName .read).map (·.1) := by
  unfold programName exchange
  cases w.live tok with
  | error e => rfl
  | ok p => cases hmay : w.mayTake t .programName <;> simp [GlobalText.lock, hmay] <;> rfl

/-- To set the name of the program is a write to that text. -/
theorem setProgramName_eq (w : World) (t : ThreadId) (tok : Token) (text : String) :
    w.setProgramName t tok text = w.exchange t tok .programName (.write text) := rfl

/-- A call that succeeds was made on a process that there is. -/
theorem exchange_ok {c : TextCall} {r : String × World} (h : w.exchange t tok f c = .ok r) :
    ∃ p, w.processes.get? tok = some p ∧ r = w.access tok f p c := by
  obtain ⟨p, hp, h⟩ := bind_eq_ok.1 h
  obtain ⟨_, -, h⟩ := bind_eq_ok.1 h
  exact ⟨p, (live_ok.1 hp).1, (Except.ok.inj h).symm⟩

/-- A process that is gone has no texts to ask for. -/
theorem exchange_of_gone {c : TextCall} (h : w.processes.get? tok = none) :
    w.exchange t tok f c = .error .shutDown := by
  have hlive : w.live tok = .error .shutDown := by
    unfold World.live
    rw [h]
  unfold exchange
  rw [hlive]
  rfl

/-- The world after a call, which a call that is refused leaves as it was. -/
def resulting (w : World) : Except AccessError (String × World) → World
  | .ok (_, w') => w'
  | .error _ => w

/-- A read leaves the world as it was. -/
theorem resulting_read (w : World) (t : ThreadId) (tok : Token) (f : GlobalText) :
    w.resulting (w.exchange t tok f .read) = w := by
  cases h : w.exchange t tok f .read with
  | error e => rfl
  | ok r =>
    obtain ⟨p, -, rfl⟩ := exchange_ok h
    rfl

/-- The call answers the text that the process had, and the process has the text that the call leaves. -/
structure Undergoes (f : GlobalText) (tok : Token) (e : TextEvent) (w w' : World) : Prop where
  answers : ∀ r, e.result = .ok r → ∃ p, w.processes.get? tok = some p ∧ r = f.get p
  leaves : ∀ p', w'.processes.get? tok = some p' →
    ∃ p, w.processes.get? tok = some p ∧ f.get p' = e.leaves (f.get p)

/-- A call that gets the lock answers the text that it finds, and leaves the one that it brings. -/
theorem undergoes_access {p : Process} (hp : w.processes.get? tok = some p) (t : ThreadId) (c : TextCall) :
    Undergoes f tok ⟨t, c, .ok (w.access tok f p c).1⟩ w (w.access tok f p c).2 where
  answers r hr := by
    refine ⟨p, hp, (Except.ok.inj hr).symm.trans ?_⟩
    cases c <;> rfl
  leaves p' hp' := by
    refine ⟨p, hp, ?_⟩
    cases c with
    | read =>
      obtain rfl := Option.some.inj (hp.symm.trans hp')
      rfl
    | write text =>
      rcases (get?_modifyProcess_eq_some _ _ _).1 hp' with ⟨-, q, -, rfl⟩ | ⟨hne, -⟩
      · exact GlobalText.get_set f text q
      · exact absurd rfl hne

/-- A call that is refused leaves the text as it was. -/
theorem undergoes_refused (t : ThreadId) (c : TextCall) (e : AccessError)
    (h : ∀ p', w'.processes.get? tok = some p' → w.processes.get? tok = some p') :
    Undergoes f tok ⟨t, c, .error e⟩ w w' where
  answers _ hr := by cases hr
  leaves p' hp' := ⟨p', h p' hp', by cases c <;> rfl⟩

/-- A call on the text undergoes what it asks for, whether it gets the lock or not. -/
theorem undergoes_exchange (w : World) (t : ThreadId) (tok : Token) (f : GlobalText) (c : TextCall) :
    Undergoes f tok ⟨t, c, (w.exchange t tok f c).map (·.1)⟩ w (w.resulting (w.exchange t tok f c)) := by
  cases h : w.exchange t tok f c with
  | error e => exact undergoes_refused t c e fun _ => id
  | ok r =>
    obtain ⟨p, hp, rfl⟩ := exchange_ok h
    exact undergoes_access hp t c

/-! ## Changes that keep a text -/

/-- The process has the text that it had, unless it is gone. -/
def KeepsText (f : GlobalText) (tok : Token) (w w' : World) : Prop :=
  ∀ p', w'.processes.get? tok = some p' → ∃ p, w.processes.get? tok = some p ∧ f.get p' = f.get p

namespace KeepsText

theorem of_sub (h : ∀ p, w'.processes.get? tok = some p → w.processes.get? tok = some p) :
    KeepsText f tok w w' :=
  fun p' hp' => ⟨p', h p' hp', rfl⟩

theorem of_eq (h : w'.processes.get? tok = w.processes.get? tok) : KeepsText f tok w w' :=
  of_sub fun _ hp => h ▸ hp

theorem refl (w : World) : KeepsText f tok w w := of_eq rfl

/-- Texts are kept over two changes if they are over each of them. -/
theorem trans (h : KeepsText f tok w w') (h' : KeepsText f tok w' w'') : KeepsText f tok w w'' := by
  intro p'' hp''
  obtain ⟨p', hp', heq'⟩ := h' p'' hp''
  obtain ⟨p, hp, heq⟩ := h p' hp'
  exact ⟨p, hp, heq'.trans heq⟩

/-- A change of a process keeps the text if it does not reach that far. -/
theorem modify {g : Process → Process} (h : ∀ p, w.processes.get? tok' = some p → f.get (g p) = f.get p) :
    KeepsText f tok w (w.modifyProcess tok' g) := by
  intro p' hp'
  rcases (get?_modifyProcess_eq_some _ _ _).1 hp' with ⟨rfl, p, hp, rfl⟩ | ⟨-, hp⟩
  · exact ⟨p, hp, h p hp⟩
  · exact ⟨p', hp, rfl⟩

/-- A change of a process that has nothing to do with its texts. -/
theorem of_same {g : Process → Process} (hsh : ∀ p, (g p).shPath = p.shPath)
    (hname : ∀ p, (g p).programName = p.programName) : KeepsText f tok w (w.modifyProcess tok' g) := by
  refine modify fun p _ => ?_
  cases f with
  | shPath => exact hsh p
  | programName => exact hname p

theorem of_local (h : Local t w w') : KeepsText f tok w w' := of_eq (by rw [h.processes])

theorem install (w : World) (tok' : Token) : KeepsText f tok w (w.install tok').2 := by
  unfold World.install
  split <;> exact refl _

theorem enroll (w : World) (t : ThreadId) (tok' : Token) (parent? : Option InstanceId) :
    KeepsText f tok w (w.enroll t tok' parent?).2 := by
  rcases enroll_cases w t tok' parent? with ⟨e, heq⟩ | ⟨e, heq⟩ | ⟨p, -, -, heq⟩ <;> rw [heq]
  · exact refl w
  · exact refl w
  · exact of_same (w := w) (g := (·.register ⟨w.nextInstance⟩)) (fun _ => rfl) fun _ => rfl

theorem withdraw {id : InstanceId} (h : w.withdraw t tok' id = .ok w') : KeepsText f tok w w' := by
  obtain ⟨p, -, -, -, rfl⟩ := withdraw_ok h
  exact of_same (fun _ => rfl) fun _ => rfl

theorem beginShutdown {ids : List InstanceId} (h : w.beginShutdown t tok' = .ok (ids, w')) :
    KeepsText f tok w w' := by
  obtain ⟨p, -, -, rfl⟩ := beginShutdown_ok h
  exact of_same (fun _ => rfl) fun _ => rfl

theorem releaseKey (w : World) (t : ThreadId) (tok' : Token) :
    KeepsText f tok w (w.releaseKey t tok') :=
  of_same (w := w) (g := fun p => { p with released := true }) (fun _ => rfl) fun _ => rfl

theorem tearDown (w : World) (t : ThreadId) (tok' : Token) (id : InstanceId) :
    KeepsText f tok w (w.tearDown t tok' id) :=
  of_eq (by rw [processes_tearDown])

/-- To set a flag of startup changes no text. -/
theorem setStartupFlag {field : String} {g : Process → Process} (hsh : ∀ p, (g p).shPath = p.shPath)
    (hname : ∀ p, (g p).programName = p.programName) (h : w.setStartupFlag t tok' field g = .ok w') :
    KeepsText f tok w w' := by
  obtain ⟨-, rfl⟩ := setStartupFlag_ok h
  exact of_same hsh hname

/-- To count an allocation changes no text. -/
theorem changeAllocStats {g : AllocStats → AllocStats} (h : w.changeAllocStats t tok' g = .ok w') :
    KeepsText f tok w w' := by
  obtain ⟨p, -, h⟩ := bind_eq_ok.1 h
  obtain ⟨_, -, h⟩ := bind_eq_ok.1 h
  rw [← Except.ok.inj h]
  exact of_same (fun _ => rfl) fun _ => rfl

end KeepsText

end World

namespace Session

open World

variable {s s' : Session} {ctx : Context} {t : ThreadId} {tok tok' : Token} {f : GlobalText}

/-! ### Calls -/

/-- What a call asks of the text of a process. -/
def textCall? (s : Session) (f : GlobalText) (tok : Token) : Call → Option TextCall
  | .process p c => if s.processes.get? p = some tok then f.call? c else none
  | .foreign c => if s.world.installed? = some tok then f.foreignCall? c else none
  | _ => none

/-- The call changes a text that a closure has in hand. -/
def editsText (ctx : Context) (f : GlobalText) (tok : Token) : Call → Bool
  | .focus (.setText _) | .focus (.appendText _) => ctx.focus = .text (f.place tok) true
  | _ => false

/-- A change of the world keeps the text, with what it answers, if it does so whenever it succeeds.
-/
theorem keepsText_change {α : Type} {g : α → Answer} {r : Except AccessError (α × World)}
    (h : ∀ a w, r = .ok (a, w) → KeepsText f tok s.world w) :
    KeepsText f tok s.world (s.change g r).2.world := by
  cases r with
  | error e => exact .refl _
  | ok p => exact h p.1 p.2 rfl

/-- A change of the world without an answer keeps the text if it does so whenever it succeeds. -/
theorem keepsText_effect {r : Except AccessError World} (h : ∀ w, r = .ok w → KeepsText f tok s.world w) :
    KeepsText f tok s.world (s.effect r).2.world := by
  cases r with
  | error e => exact .refl _
  | ok w => exact h w rfl

/-- Of the calls to a process only one that writes the text changes it. -/
theorem keepsText_plainProcessCall {p : Process} {c : ProcessCall}
    (hc : ∀ text, f.call? c ≠ some (.write text)) :
    KeepsText f tok s.world (s.plainProcessCall ctx tok' p c).2.world := by
  -- only the setter of this text writes it, and that of the other text leaves it alone
  cases c with
  | forceDoUndump b => exact .of_same (fun _ => rfl) fun _ => rfl
  | install => exact .install s.world tok'
  | find i as? =>
    simp only [plainProcessCall]
    split
    · exact .refl _
    · rw [world_keepAnswer]
      exact .refl _
  | initial as? =>
    simp only [plainProcessCall, world_keepAnswer]
    exact .refl _
  | bind i as? =>
    simp only [plainProcessCall]
    split
    · exact .refl _
    · split
      · rw [world_keepHandle]
        exact .of_local (local_bind _ _ _ _)
      · exact .of_local (local_bind _ _ _ _)
  | release => exact keepsText_change fun _ _ h => .of_local (local_release h)
  | current as? =>
    simp only [plainProcessCall]
    split
    · rw [world_keepInstance]
      exact .refl _
    · exact .refl _
  | currentThread as? =>
    simp only [plainProcessCall]
    split
    · rw [world_keepHandle]
      exact .refl _
    · exact .refl _
  | removeHook h =>
    simp only [plainProcessCall]
    split
    · exact .refl _
    · refine keepsText_change fun found w h => ?_
      obtain ⟨q, -, -, rfl⟩ := removeHook_ok h
      exact .of_same (fun _ => rfl) fun _ => rfl
  | setDoUndump b =>
    exact keepsText_effect fun _ => .setStartupFlag (fun _ => rfl) fun _ => rfl
  | setEarlyTaint b =>
    exact keepsText_effect fun _ => .setStartupFlag (fun _ => rfl) fun _ => rfl
  | setShPath text =>
    refine keepsText_change fun _ _ h => ?_
    obtain ⟨q, -, -, rfl⟩ := guarded_ok (fun p => (p.shPath, fun q => { q with shPath := text })) h
    cases f with
    | shPath => exact absurd rfl (hc text)
    | programName => exact .modify fun _ _ => rfl
  | setProgramName text =>
    refine keepsText_change fun _ _ h => ?_
    obtain ⟨q, -, -, rfl⟩ :=
      guarded_ok (fun p => (p.programName, fun q => { q with programName := text })) h
    cases f with
    | shPath => exact .modify fun _ _ => rfl
    | programName => exact absurd rfl (hc text)
  | increment op =>
    refine keepsText_change fun _ _ h => ?_
    obtain ⟨q, -, -, rfl⟩ := guarded_ok (fun p => ((p.opRefs.increment op).1, fun q =>
      { q with opRefs := (p.opRefs.increment op).2 })) h
    exact .of_same (fun _ => rfl) fun _ => rfl
  | decrement op =>
    refine keepsText_change fun _ _ h => ?_
    obtain ⟨q, -, -, rfl⟩ := guarded_ok (fun p => ((p.opRefs.decrement op).1, fun q =>
      { q with opRefs := (p.opRefs.decrement op).2 })) h
    exact .of_same (fun _ => rfl) fun _ => rfl
  | recordAlloc n => exact keepsText_effect fun _ => .changeAllocStats
  | recordFree n => exact keepsText_effect fun _ => .changeAllocStats
  | _ => exact .refl _

/-- The change is made of the process as it is. -/
theorem keepsText_onProcess {g : Process → Answer × Process} (hsh : ∀ p, (g p).2.shPath = p.shPath)
    (hname : ∀ p, (g p).2.programName = p.programName) :
    KeepsText f tok s.world (s.onProcess tok' g).2.world := by
  unfold onProcess
  split
  · exact .refl _
  · next p hp =>
    refine .modify fun q hq => ?_
    rw [hp] at hq
    obtain rfl := Option.some.inj hq
    cases f with
    | shPath => exact hsh p
    | programName => exact hname p

theorem keepsText_setTextAt {place : TextPlace} (h : place ≠ f.place tok) (text : String) :
    KeepsText f tok s.world (s.setTextAt text place).world := by
  intro p' hp'
  cases place with
  | cell c => exact ⟨p', hp', rfl⟩
  | shPath tok' | programName tok' =>
    rcases (get?_modifyProcess_eq_some _ _ _).1 hp' with ⟨rfl, p, hp, rfl⟩ | ⟨-, hp⟩
    · refine ⟨p, hp, ?_⟩
      cases f <;> first | rfl | exact absurd rfl h
    · exact ⟨p', hp, rfl⟩

/-- What is done in a closure changes the text only where this closure has it in hand. -/
theorem keepsText_focusCall {c : FocusCall} (h : editsText ctx f tok (.focus c) = false) :
    KeepsText f tok s.world (s.focusCall ctx c).2.world := by
  have hinstance : ∀ id g, KeepsText f tok s.world (s.onInstance id g).2.world := by
    intro id g
    unfold onInstance
    split <;> exact .refl _
  have hthread : ∀ t storage g, KeepsText f tok s.world (s.onThread t storage g).2.world := by
    intro t storage g
    unfold onThread
    split <;> exact .refl _
  unfold focusCall
  split
  · exact .refl _
  · split
    · cases c <;> first | exact .refl _ | exact hinstance _ _
    · cases c <;> first | exact .refl _ | exact hthread _ _ _
    · next place hfocus =>
      -- the text in hand is another one, or the call does not change it
      cases c <;> first
        | exact .refl _
        | exact keepsText_setTextAt (fun heq => of_decide_eq_false h (by rw [hfocus, heq])) _
    · cases c with
      | insertInstance i | removeInstance i | findInstance i =>
        simp only [registryCall]
        split
        · exact .refl _
        · exact keepsText_onProcess (fun _ => rfl) fun _ => rfl
      | _ => exact .refl _
    · cases c with
      | removeHook h =>
        simp only [hooksCall]
        split
        · exact .refl _
        · exact keepsText_onProcess (fun _ => rfl) fun _ => rfl
      | _ => exact .refl _
    · cases c <;> first | exact .refl _ | exact keepsText_onProcess (fun _ => rfl) fun _ => rfl
    · cases c <;> first | exact .refl _ | exact keepsText_onProcess (fun _ => rfl) fun _ => rfl
    · exact .refl _

/-- Foreign code changes the text only by the call that writes it. -/
theorem keepsText_foreignCall {c : ForeignCall} (htok : s.world.installed? = some tok)
    (hc : ∀ text, f.foreignCall? c ≠ some (.write text)) :
    KeepsText f tok s.world (s.foreignCall t c).2.world := by
  cases c with
  | start =>
    simp only [foreignCall, foreignStart]
    rw [htok]
    exact .refl _
  | setProgramName bytes? =>
    simp only [foreignCall, foreignSetProgramName]
    split
    · next name tok' hname _ =>
      split
      · next h =>
        obtain ⟨q, -, -, rfl⟩ :=
          guarded_ok (fun p => (p.programName, fun q => { q with programName := name })) h
        cases f with
        | shPath => exact .modify fun _ _ => rfl
        | programName => exact absurd (congrArg (Option.map TextCall.write) hname) (hc name)
      · exact .refl _
    · exact .refl _
  | _ => exact .refl _

/-- A call on the process that is done at once keeps a text that it does not write. -/
theorem keepsText_served {c : Call} {o : Outcome} (hoperand : s.callOperand? ctx c = some tok)
    (htext : ∀ text, s.textCall? f tok c ≠ some (.write text)) (hedits : editsText ctx f tok c = false)
    (h : s.Served ctx c o s') : KeepsText f tok s.world s'.world := by
  cases h with
  | plain hplain =>
    cases c with
    | focus c => exact keepsText_focusCall hedits
    | foreign c =>
      have htok : s.world.installed? = some tok := hoperand
      refine keepsText_foreignCall htok fun text heq => htext text ?_
      unfold textCall?
      dsimp only
      rw [if_pos htok, heq]
    | process p c => exact absurd rfl (hplain p c)
    | _ => cases hoperand
  | @process p c tok' q hproc hq hc =>
    have htok : s.processes.get? p = some tok := hoperand
    refine keepsText_plainProcessCall fun text heq => htext text ?_
    unfold textCall?
    dsimp only
    rw [if_pos htok, heq]
  | refused fault => exact .refl _
  | drawn hc henroll => exact .refl s.world
  | shutdown hproc hbegin => exact (KeepsText.beginShutdown hbegin).trans (.releaseKey _ _ _)

theorem keepsText_begins {d : Dispatch} (h : s.Begins t tok' d s') : KeepsText f tok s.world s'.world := by
  cases h with
  | @create parent? id w as? henroll =>
    have hkeeps : KeepsText f tok s.world (s.world.enroll t tok' parent?).2 := .enroll s.world t tok' parent?
    rw [henroll] at hkeeps
    exact hkeeps
  | destroy hwithdraw => exact .withdraw hwithdraw
  | shutdown hbegin => exact .beginShutdown hbegin

theorem keepsText_finishes {d : Dispatch} {p : Progress} (h : s.Finishes d p) :
    KeepsText f tok s.world p.session.world := by
  have htear : KeepsText f tok s.world (s.world.tearDown d.thread d.process d.target) :=
    .tearDown s.world d.thread d.process d.target
  cases h with
  | create _ =>
    show KeepsText f tok s.world (s.keepInstance _ _).world
    rw [world_keepInstance]
    exact .refl _
  | destroy _ | next _ => exact htear
  | shutdown _ => exact htear.trans (.releaseKey _ _ _)

end Session

namespace Machine

open World Session

variable {m : Machine} {sc : Scene} {ctx : Context} {tok : Token} {f : GlobalText}

/-! ### Steps -/

/-- What the next step asks of the text of a process, and on which thread. -/
def textCall? (m : Machine) (f : GlobalText) (tok : Token) : Option (ThreadId × TextCall) :=
  m.nextCall?.bind fun r => (m.session.textCall? f tok r.2).map (r.1.thread, ·)

/-- The next step changes the text of a process that a closure has in hand. -/
def editsText (m : Machine) (f : GlobalText) (tok : Token) : Bool :=
  m.nextCall?.any fun r => Session.editsText r.1 f tok r.2

/-- A step that does not write the text, neither by a call nor in a closure, leaves it as it is. -/
theorem keepsText_turn (hdrawn : tok.number < m.session.world.nextToken)
    (htext : ∀ t text, m.textCall? f tok ≠ some (t, .write text)) (hedits : m.editsText f tok = false)
    (h : Turn m sc) : KeepsText f tok m.session.world sc.session.world := by
  -- a step that operates on another process, or on none, does not come to this one
  by_cases hop : m.operates? = some tok
  · cases h with
    | @served ctx c o s hcall hdone hserved =>
      rw [operates?_of_nextCall? hcall] at hop
      have hkeeps : KeepsText f tok (m.opening ctx).world s.world := by
        refine keepsText_served hop (fun text heq => htext ctx.thread text ?_) ?_ hserved
        · unfold textCall?
          rw [hcall]
          exact congrArg (Option.map (ctx.thread, ·)) heq
        · unfold editsText at hedits
          rwa [hcall] at hedits
      exact hkeeps
    | @begins ctx p c tok' d s job hcall hproc hrunning hbegins =>
      have hkeeps : KeepsText f tok (m.opening ctx).world s.world := keepsText_begins hbegins
      exact hkeeps
    | @registers ctx on? r steps hnext =>
      rcases registerHook_cases (m.opening ctx) ctx r steps with heq | ⟨tok', p, -, hworld, -, -⟩
      · show KeepsText f tok _ ((m.opening ctx).registerHook ctx r steps).2.world
        rw [heq]
        exact .refl _
      · show KeepsText f tok _ ((m.opening ctx).registerHook ctx r steps).2.world
        rw [hworld]
        exact .of_same (w := (m.opening ctx).world) (fun _ => rfl) fun _ => rfl
    | finishes hstack hfin hdone => exact keepsText_finishes (finishes_of_finish hdone)
    | goesOn hstack hfin hrunning => exact keepsText_finishes (finishes_of_finish hrunning)
    | opens job hnext henter =>
      exact .of_eq (congrArg (·.get? tok) (tables_entered (entered_of_enter henter)).1)
    | fails => exact .of_eq (congrArg (·.get? tok) (tables_unwind _ _).1)
    | @closes b => exact .of_eq (congrArg (·.get? tok) (tables_undo _ b).1)
    | idle | refused | skips | calls => exact .refl _
  · rcases processes_turn h hop with hsame | ⟨-, rfl⟩
    · exact .of_eq hsame
    · exact absurd hdrawn (Nat.lt_irrefl _)

/-- The sweep at the end of the step may drop the process, but changes no text. -/
theorem keepsText_step (hdrawn : tok.number < m.session.world.nextToken)
    (htext : ∀ t text, m.textCall? f tok ≠ some (t, .write text)) (hedits : m.editsText f tok = false) :
    KeepsText f tok m.session.world m.step.session.world := by
  have hact : KeepsText f tok m.session.world m.act.session.world :=
    keepsText_turn hdrawn htext hedits (act_turn m)
  obtain ⟨-, hproc, -, -⟩ := sweep_sub m.act.session m.actor m.act.heldTokens m.act.heldIds
  exact hact.trans (.of_sub (hproc tok))

end Machine

namespace Session

open World

variable {s : Session} {ctx : Context} {tok : Token} {f : GlobalText} {call : TextCall}

/-! ## Steps that are calls on a text -/

/-- Calls on a text run no hooks. -/
theorem isLifecycle_of_call? {c : ProcessCall} (h : f.call? c = some call) : c.isLifecycle = false := by
  cases f <;> cases c <;> first | rfl | cases h

/-- A session answers what the call on the text gives. -/
theorem plainProcessCall_of_call? {c : ProcessCall} (h : f.call? c = some call) (q : Process) :
    (s.plainProcessCall ctx tok q c).1 =
      answer .text ((s.world.exchange ctx.thread tok f call).map (·.1)) ∧
    (s.plainProcessCall ctx tok q c).2.world =
      s.world.resulting (s.world.exchange ctx.thread tok f call) := by
  have hwrite : ∀ r : Except AccessError (String × World),
      (s.change .text r).1 = answer .text (r.map (·.1)) ∧
        (s.change .text r).2.world = s.world.resulting r := by
    intro r
    cases r <;> exact ⟨rfl, rfl⟩
  cases f <;> cases c <;> cases h
  · exact ⟨congrArg (answer .text) (shPath_eq _ _ _), (resulting_read _ _ _ _).symm⟩
  · exact hwrite _
  · exact ⟨congrArg (answer .text) (programName_eq _ _ _), (resulting_read _ _ _ _).symm⟩
  · exact hwrite _

/-- A call on a process that is gone does nothing. -/
theorem call_of_gone {p : Name} {c : ProcessCall} (hproc : s.process p = .ok tok)
    (hgone : s.world.processes.get? tok = none) (hc : c.isLifecycle = false) :
    s.call ctx (.process p c) = .done (.error .misplaced) s := by
  simp only [Session.call]
  rw [hproc]
  dsimp only
  cases c
  case create | spawn | destroy | shutdown => cases hc
  all_goals
    simp only [processCall]
    rw [hgone]

/-- What foreign code asks of a text is asked of the process that is installed. -/
theorem foreignCall_of_foreignCall? {c : ForeignCall} (htok : s.world.installed? = some tok)
    (h : f.foreignCall? c = some call) (t : ThreadId) :
    (s.foreignCall t c).2.world = s.world.resulting (s.world.exchange t tok f call) := by
  cases f <;> cases c <;> try cases h
  · exact (resulting_read _ _ _ _).symm
  · exact (resulting_read _ _ _ _).symm
  · next bytes? =>
    obtain ⟨name, hname, rfl⟩ := Option.map_eq_some_iff.1 h
    simp only [foreignCall, foreignSetProgramName]
    rw [hname, htok]
    dsimp only
    rw [setProgramName_eq]
    cases s.world.exchange t tok .programName (.write name) <;> rfl

end Session

namespace Machine

open World Session

variable {m : Machine} {ctx : Context} {t : ThreadId} {tok : Token} {f : GlobalText} {call : TextCall}

/-- A step that asks for a text is a call of the thread that asks. -/
theorem textCall?_eq_some : m.textCall? f tok = some (t, call) ↔
    ∃ ctx c, m.nextCall? = some (ctx, c) ∧ ctx.thread = t ∧ m.session.textCall? f tok c = some call := by
  unfold textCall?
  rw [Option.bind_eq_some_iff]
  constructor
  · rintro ⟨⟨ctx, c⟩, hcall, htext⟩
    obtain ⟨call', hcall', heq⟩ := Option.map_eq_some_iff.1 htext
    obtain ⟨rfl, rfl⟩ := Prod.mk.inj heq
    exact ⟨ctx, c, hcall, rfl, hcall'⟩
  · rintro ⟨ctx, c, hcall, rfl, htext⟩
    exact ⟨(ctx, c), hcall, by rw [htext]; rfl⟩

/-- What a call answers does not depend on whether its thread was there before. -/
theorem exchange_opening (m : Machine) (ctx : Context) (tok : Token) (f : GlobalText) (c : TextCall) :
    ((m.opening ctx).world.exchange ctx.thread tok f c).map (·.1) =
      (m.session.world.exchange ctx.thread tok f c).map (·.1) := by
  have hmay : (m.opening ctx).world.mayTake ctx.thread f.lock =
      m.session.world.mayTake ctx.thread f.lock := by
    unfold World.mayTake
    rw [thread_opening]
  have hlive : (m.opening ctx).world.live tok = m.session.world.live tok := rfl
  unfold exchange
  rw [hlive, hmay]
  cases m.session.world.live tok with
  | error e => rfl
  | ok p =>
    cases m.session.world.mayTake ctx.thread f.lock with
    | error e => rfl
    | ok u => cases c <;> rfl

/-- The world that a call on a text leads to. -/
theorem act_of_textCall? {c : Call} (hcall : m.nextCall? = some (ctx, c))
    (htext : m.session.textCall? f tok c = some call) :
    m.act.session.world =
      (m.opening ctx).world.resulting ((m.opening ctx).world.exchange ctx.thread tok f call) := by
  unfold Session.textCall? at htext
  split at htext
  · next n pc =>
    split at htext
    · next htok =>
      -- a process that is gone answers with a refusal, as the exchange does
      cases hq : m.session.world.processes.get? tok with
      | some q =>
        have hscene := act_of_plain hcall (process_eq_ok.2 htok) hq (isLifecycle_of_call? htext)
        have hworld : m.act.session.world = ((m.opening ctx).plainProcessCall ctx tok q pc).2.world :=
          congrArg (·.session.world) hscene
        exact hworld.trans (plainProcessCall_of_call? htext q).2
      | none =>
        obtain ⟨job, hscene⟩ := act_of_nextCall? hcall fun h => by cases h
        have hgone : (m.opening ctx).call ctx (.process n pc) = _ :=
          call_of_gone (process_eq_ok.2 htok) hq (isLifecycle_of_call? htext)
        rw [hgone] at hscene
        rw [exchange_of_gone (w := (m.opening ctx).world) hq]
        exact congrArg (·.session.world) hscene
    · cases htext
  · next fc =>
    split at htext
    · next htok =>
      obtain ⟨job, hscene⟩ := act_of_nextCall? hcall fun h => by cases h
      have hworld : m.act.session.world = ((m.opening ctx).foreignCall ctx.thread fc).2.world :=
        congrArg (·.session.world) hscene
      exact hworld.trans (foreignCall_of_foreignCall? (s := m.opening ctx) htok htext _)
    · cases htext
  · cases htext

/-- A step that is a call on a text does to it what the call does. -/
theorem undergoes_step (h : m.textCall? f tok = some (t, call)) :
    Undergoes f tok ⟨t, call, (m.session.world.exchange t tok f call).map (·.1)⟩ m.session.world
      m.step.session.world := by
  obtain ⟨ctx, c, hcall, rfl, htext⟩ := textCall?_eq_some.1 h
  have hact : Undergoes f tok ⟨ctx.thread, call,
      (m.session.world.exchange ctx.thread tok f call).map (·.1)⟩ (m.opening ctx).world
      m.act.session.world := by
    rw [act_of_textCall? hcall htext, ← exchange_opening]
    exact undergoes_exchange (m.opening ctx).world ctx.thread tok f call
  obtain ⟨-, hproc, -, -⟩ := sweep_sub m.act.session m.actor m.act.heldTokens m.act.heldIds
  exact ⟨hact.answers, fun p' hp' => hact.leaves p' (hproc tok p' hp')⟩

end Machine

end TieredState
