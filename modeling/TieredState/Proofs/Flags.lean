import TieredState.Proofs.Ages
import TieredState.Proofs.Locks

/-!
# The flags of the startup

Two flags of a process may be written while the process starts up, and are read without a lock ever
after. `Seals w w'` says of two worlds that a process which was past its startup in the first one is
so in the second, and has the flags that it had. Every step seals, unless it sets a flag past the
check of the phase.

* `writes_of_nextCall?` — what becomes of a write of a flag.
* `seals_step`, `seals_of_run` — what is past its startup keeps its flags.
-/

namespace TieredState

/-- The flags of a process that only its startup may write. -/
inductive StartupFlag where
  | doUndump
  | earlyTaint
  deriving DecidableEq, Repr

namespace StartupFlag

/-- The name of the flag in errors. -/
def field : StartupFlag → String
  | doUndump => "do_undump"
  | earlyTaint => "early_taint"

def get (f : StartupFlag) (p : Process) : Bool :=
  match f with
  | doUndump => p.doUndump
  | earlyTaint => p.earlyTaint

def set (f : StartupFlag) (b : Bool) (p : Process) : Process :=
  match f with
  | doUndump => { p with doUndump := b }
  | earlyTaint => { p with earlyTaint := b }

/-- The call that reads the flag. -/
def read : StartupFlag → ProcessCall
  | doUndump => .doUndump
  | earlyTaint => .earlyTaint

/-- The call that writes the flag. -/
def write (f : StartupFlag) (b : Bool) : ProcessCall :=
  match f with
  | doUndump => .setDoUndump b
  | earlyTaint => .setEarlyTaint b

variable (f : StartupFlag) (b : Bool) (p : Process)

/-- A flag that is set leaves the registry as it is. -/
@[simp] theorem registry_set : (f.set b p).registry = p.registry := by cases f <;> rfl

/-- To read a flag runs no hooks. -/
theorem isLifecycle_read : f.read.isLifecycle = false := by cases f <;> rfl

/-- To write a flag runs no hooks. -/
theorem isLifecycle_write : (f.write b).isLifecycle = false := by cases f <;> rfl

end StartupFlag

/-- The call sets a flag of a process past the check of its phase. -/
def Call.forcesFlag : Call → Bool
  | .process _ (.forceDoUndump _) => true
  | _ => false

namespace World

variable {w w' w'' : World} {t : ThreadId} {tok : Token} {f : Process → Process}

/-! ## What a write comes to -/

/-- Why a flag is not written: a lock is held that ranks too high, or the startup is over. -/
def writeError (w : World) (t : ThreadId) (p : Process) (field : String) : AccessError :=
  match w.mayTake t .registry with
  | .error e => e
  | .ok () => if p.phase = .running then .startupSealed field else .shutDown

/-- A flag is written when the process starts up and its registry's lock is free for the thread. -/
theorem setStartupFlag_of_startup {p : Process} {u : Unit} (hmay : w.mayTake t .registry = .ok u)
    (hp : w.processes.get? tok = some p) (hphase : p.phase = .startup) (field : String) :
    w.setStartupFlag t tok field f = .ok (w.modifyProcess tok f) := by
  unfold setStartupFlag
  rw [hmay, hp, Option.map_some, Option.getD_some, hphase]
  rfl

/-- A flag is not written if a lock is in the way or the startup is over. -/
theorem setStartupFlag_refused {p : Process} (hp : w.processes.get? tok = some p)
    (h : ¬(w.mayTake t .registry = .ok () ∧ p.phase = .startup)) (field : String) :
    w.setStartupFlag t tok field f = .error (w.writeError t p field) := by
  unfold setStartupFlag writeError
  rw [hp, Option.map_some, Option.getD_some]
  cases hmay : w.mayTake t .registry with
  | error e => rfl
  | ok u =>
    cases hphase : p.phase with
    | startup => exact absurd ⟨hmay, hphase⟩ h
    | running => rfl
    | shutDown => rfl

/-- A flag that is written is that of a process in its startup. -/
theorem setStartupFlag_ok {field : String} (h : w.setStartupFlag t tok field f = .ok w') :
    (∃ p, w.processes.get? tok = some p ∧ p.phase = .startup) ∧ w' = w.modifyProcess tok f := by
  obtain ⟨_, -, h⟩ := bind_eq_ok.1 h
  dsimp only at h
  split at h
  · next hphase =>
    cases hp : w.processes.get? tok with
    | none =>
      rw [hp] at hphase
      cases hphase
    | some p =>
      rw [hp] at hphase
      exact ⟨⟨p, rfl, hphase⟩, (Except.ok.inj h).symm⟩
  · cases h
  · cases h

/-! ## What is past its startup -/

/-- A process that was past its startup is so, and has the flags that it had. -/
structure Seals (w w' : World) : Prop where
  nextToken : w.nextToken ≤ w'.nextToken
  processes : ∀ tok p', w'.processes.get? tok = some p' → w.nextToken ≤ tok.number ∨
    ∃ p, w.processes.get? tok = some p ∧
      (p.phase ≠ .startup → p'.phase ≠ .startup ∧ ∀ f : StartupFlag, f.get p' = f.get p)

namespace Seals

/-- Processes may go. -/
theorem of_sub (h : ∀ tok p, w'.processes.get? tok = some p → w.processes.get? tok = some p)
    (htoken : w'.nextToken = w.nextToken) : Seals w w' where
  nextToken := Nat.le_of_eq htoken.symm
  processes tok p hp := .inr ⟨p, h tok p hp, fun hphase => ⟨hphase, fun _ => rfl⟩⟩

theorem of_eq (h : w'.processes = w.processes) (htoken : w'.nextToken = w.nextToken) : Seals w w' :=
  of_sub (fun _ _ hp => h ▸ hp) htoken

theorem refl (w : World) : Seals w w := of_eq rfl rfl

/-- Flags stay sealed over two changes if they do over each of them. -/
theorem trans (h : Seals w w') (h' : Seals w' w'') : Seals w w'' where
  nextToken := Nat.le_trans h.nextToken h'.nextToken
  processes tok p'' hp'' := by
    rcases h'.processes tok p'' hp'' with hnew | ⟨p', hp', hkeep'⟩
    · exact .inl (Nat.le_trans h.nextToken hnew)
    · rcases h.processes tok p' hp' with hnew | ⟨p, hp, hkeep⟩
      · exact .inl hnew
      · refine .inr ⟨p, hp, fun hphase => ?_⟩
        obtain ⟨hphase', hflags⟩ := hkeep hphase
        obtain ⟨hphase'', hflags'⟩ := hkeep' hphase'
        exact ⟨hphase'', fun f => (hflags' f).trans (hflags f)⟩

/-- A change of a process past its startup has to leave its flags alone. -/
theorem of_modifyProcess (h : ∀ p, w.processes.get? tok = some p → p.phase ≠ .startup →
    (f p).phase ≠ .startup ∧ ∀ g : StartupFlag, g.get (f p) = g.get p) :
    Seals w (w.modifyProcess tok f) := by
  refine ⟨Nat.le_refl _, fun tok' p' hp' => .inr ?_⟩
  rcases (get?_modifyProcess_eq_some _ _ _).1 hp' with ⟨rfl, p, hp, rfl⟩ | ⟨-, hp⟩
  · exact ⟨p, hp, h p hp⟩
  · exact ⟨p', hp, fun hphase => ⟨hphase, fun _ => rfl⟩⟩

/-- A change of a process that has nothing to do with its phase and its flags. -/
theorem of_same (h : ∀ p, (f p).phase = p.phase ∧ (f p).doUndump = p.doUndump ∧
    (f p).earlyTaint = p.earlyTaint) : Seals w (w.modifyProcess tok f) := by
  refine of_modifyProcess fun p _ hphase => ?_
  obtain ⟨hsame, hundump, htaint⟩ := h p
  refine ⟨hsame ▸ hphase, fun g => ?_⟩
  cases g with
  | doUndump => exact hundump
  | earlyTaint => exact htaint

theorem of_local (h : Local t w w') : Seals w w' := of_eq h.processes h.nextToken

/-- A process that is started takes a token of its own, so it does not replace one that is past its
startup. -/
theorem start (w : World) (c : Config) : Seals w (w.start c).2 := by
  refine ⟨Nat.le_succ _, fun tok p hp => ?_⟩
  rw [get?_start] at hp
  split at hp
  · next heq =>
    rw [heq]
    exact .inl (Nat.le_refl _)
  · exact .inr ⟨p, hp, fun hphase => ⟨hphase, fun _ => rfl⟩⟩

theorem install (w : World) (tok : Token) : Seals w (w.install tok).2 := by
  unfold World.install
  split <;> exact of_eq rfl rfl

/-- The flags are written before anything is sealed. -/
theorem setStartupFlag {field : String} (h : w.setStartupFlag t tok field f = .ok w') :
    Seals w w' := by
  obtain ⟨⟨p, hp, hphase⟩, rfl⟩ := setStartupFlag_ok h
  refine of_modifyProcess fun q hq hpast => ?_
  rw [hp] at hq
  exact absurd (Option.some.inj hq ▸ hphase) hpast

/-- A process is asked for, a lock is checked, and then the process is changed. -/
theorem guarded {α : Type} {x : Except AccessError Process} {y : Except AccessError Unit} {a : α}
    (f : Process → α × (Process → Process)) (hf : ∀ p q, ((f p).2 q).phase = q.phase ∧
      ((f p).2 q).doUndump = q.doUndump ∧ ((f p).2 q).earlyTaint = q.earlyTaint)
    (h : (do
      let p ← x
      y
      return ((f p).1, w.modifyProcess tok (f p).2)) = .ok (a, w')) : Seals w w' := by
  obtain ⟨p, -, -, rfl⟩ := guarded_ok f h
  exact of_same (hf p)

/-- To count an allocation leaves flags alone. -/
theorem changeAllocStats {g : AllocStats → AllocStats} (h : w.changeAllocStats t tok g = .ok w') :
    Seals w w' := by
  obtain ⟨p, -, h⟩ := bind_eq_ok.1 h
  obtain ⟨_, -, h⟩ := bind_eq_ok.1 h
  rw [← Except.ok.inj h]
  exact of_same fun _ => ⟨rfl, rfl, rfl⟩

/-- To register an instance leaves flags alone, and ends the startup. -/
theorem enroll (w : World) (t : ThreadId) (tok : Token) (parent? : Option InstanceId) :
    Seals w (w.enroll t tok parent?).2 := by
  rcases enroll_cases w t tok parent? with ⟨e, heq⟩ | ⟨e, heq⟩ | ⟨p, -, -, heq⟩ <;> rw [heq]
  · exact refl w
  · exact of_eq rfl rfl
  · have hregister : Seals w (w.modifyProcess tok (·.register ⟨w.nextInstance⟩)) := by
      refine of_modifyProcess fun p _ hphase => ⟨?_, fun g => ?_⟩
      · rw [Process.register, if_neg hphase]
        exact hphase
      · cases g <;> rfl
    exact ⟨hregister.nextToken, hregister.processes⟩

theorem withdraw {id : InstanceId} (h : w.withdraw t tok id = .ok w') : Seals w w' := by
  obtain ⟨p, -, -, -, rfl⟩ := withdraw_ok h
  exact of_same fun _ => ⟨rfl, rfl, rfl⟩

theorem beginShutdown {ids : List InstanceId} (h : w.beginShutdown t tok = .ok (ids, w')) :
    Seals w w' := by
  obtain ⟨p, -, -, rfl⟩ := beginShutdown_ok h
  refine of_modifyProcess fun q _ _ => ⟨nofun, fun g => ?_⟩
  cases g <;> rfl

theorem releaseKey (w : World) (t : ThreadId) (tok : Token) : Seals w (w.releaseKey t tok) := by
  have hrelease : Seals w (w.modifyProcess tok fun p => { p with released := true }) :=
    of_same fun _ => ⟨rfl, rfl, rfl⟩
  exact ⟨hrelease.nextToken, hrelease.processes⟩

theorem tearDown (w : World) (t : ThreadId) (tok : Token) (id : InstanceId) :
    Seals w (w.tearDown t tok id) := by
  rcases tearDown_cases w t tok id with ⟨heq, -⟩ | ⟨-, hspec⟩
  · rw [heq]
    exact of_eq rfl rfl
  · have hmarked : Seals w (w.marked id) := of_eq rfl rfl
    exact hmarked.trans (of_local hspec.frame)

end Seals

end World

namespace Session

open World

variable {s s' : Session} {ctx : Context} {t : ThreadId} {tok : Token}

/-! ## Calls -/

/-- A change of the world keeps flags sealed, with what it answers, if it does so whenever it
succeeds. -/
theorem seals_change {α : Type} {f : α → Answer} {r : Except AccessError (α × World)}
    (h : ∀ a w, r = .ok (a, w) → Seals s.world w) : Seals s.world (s.change f r).2.world := by
  cases r with
  | error e => exact .refl _
  | ok p => exact h p.1 p.2 rfl

/-- A change of the world without an answer keeps flags sealed if it does so whenever it succeeds.
-/
theorem seals_effect {r : Except AccessError World} (h : ∀ w, r = .ok w → Seals s.world w) :
    Seals s.world (s.effect r).2.world := by
  cases r with
  | error e => exact .refl _
  | ok w => exact h w rfl

/-- Of the calls to a process only those that set a flag past the check could break a seal. -/
theorem seals_plainProcessCall {p : Process} {c : ProcessCall} {n : Name}
    (hforce : (Call.process n c).forcesFlag = false) :
    Seals s.world (s.plainProcessCall ctx tok p c).2.world := by
  cases c with
  | forceDoUndump b => cases hforce
  | install => exact .install s.world tok
  | find i as? =>
    simp only [plainProcessCall]
    split
    · exact .refl _
    · rw [world_keepAnswer]
      exact .refl _
  | initial as? =>
    simp only [plainProcessCall, world_keepAnswer]
    exact .refl _
  | bind i as? =>
    simp only [plainProcessCall]
    split
    · exact .refl _
    · split
      · rw [world_keepHandle]
        exact .of_local (local_bind _ _ _ _)
      · exact .of_local (local_bind _ _ _ _)
  | release => exact seals_change fun _ _ h => .of_local (local_release h)
  | current as? =>
    simp only [plainProcessCall]
    split
    · rw [world_keepInstance]
      exact .refl _
    · exact .refl _
  | currentThread as? =>
    simp only [plainProcessCall]
    split
    · rw [world_keepHandle]
      exact .refl _
    · exact .refl _
  | removeHook h =>
    simp only [plainProcessCall]
    split
    · exact .refl _
    · refine seals_change fun found w h => ?_
      obtain ⟨q, -, -, rfl⟩ := removeHook_ok h
      exact .of_same fun _ => ⟨rfl, rfl, rfl⟩
  | setDoUndump b => exact seals_effect fun _ => .setStartupFlag
  | setEarlyTaint b => exact seals_effect fun _ => .setStartupFlag
  | setShPath text =>
    exact seals_change fun _ _ => .guarded (fun p => (p.shPath, fun q => { q with shPath := text }))
      fun _ _ => ⟨rfl, rfl, rfl⟩
  | setProgramName text =>
    exact seals_change fun _ _ => .guarded
      (fun p => (p.programName, fun q => { q with programName := text })) fun _ _ => ⟨rfl, rfl, rfl⟩
  | increment op =>
    exact seals_change fun _ _ => .guarded (fun p => ((p.opRefs.increment op).1, fun q =>
      { q with opRefs := (p.opRefs.increment op).2 })) fun _ _ => ⟨rfl, rfl, rfl⟩
  | decrement op =>
    exact seals_change fun _ _ => .guarded (fun p => ((p.opRefs.decrement op).1, fun q =>
      { q with opRefs := (p.opRefs.decrement op).2 })) fun _ _ => ⟨rfl, rfl, rfl⟩
  | recordAlloc n => exact seals_effect fun _ => .changeAllocStats
  | recordFree n => exact seals_effect fun _ => .changeAllocStats
  | _ => exact .refl _

/-- The change is made of the process as it is. -/
theorem seals_onProcess {f : Process → Answer × Process} (hf : ∀ p, (f p).2.phase = p.phase ∧
    (f p).2.doUndump = p.doUndump ∧ (f p).2.earlyTaint = p.earlyTaint) :
    Seals s.world (s.onProcess tok f).2.world := by
  unfold onProcess
  split
  · exact .refl _
  · next p hp =>
    refine .of_modifyProcess fun q hq hphase => ?_
    rw [hp] at hq
    obtain rfl := Option.some.inj hq
    obtain ⟨hsame, hundump, htaint⟩ := hf p
    refine ⟨hsame ▸ hphase, fun g => ?_⟩
    cases g with
    | doUndump => exact hundump
    | earlyTaint => exact htaint

theorem seals_focusCall (s : Session) (ctx : Context) (c : FocusCall) :
    Seals s.world (s.focusCall ctx c).2.world := by
  -- what a closure has in hand is a part of the world that no seal looks at
  have hinstance : ∀ id f, Seals s.world (s.onInstance id f).2.world := by
    intro id f
    unfold onInstance
    split <;> exact .of_eq rfl rfl
  have hthread : ∀ t storage f, Seals s.world (s.onThread t storage f).2.world := by
    intro t storage f
    unfold onThread
    split <;> exact .of_eq rfl rfl
  have htext : ∀ text place, Seals s.world (s.setTextAt text place).world := by
    intro text place
    cases place with
    | shPath tok => exact .of_same fun _ => ⟨rfl, rfl, rfl⟩
    | programName tok => exact .of_same fun _ => ⟨rfl, rfl, rfl⟩
    | cell c => exact .refl _
  unfold focusCall
  split
  · exact .refl _
  · split
    · cases c <;> first | exact .refl _ | exact hinstance _ _
    · cases c <;> first | exact .refl _ | exact hthread _ _ _
    · cases c <;> first | exact .refl _ | exact htext _ _
    · cases c with
      | insertInstance i | removeInstance i | findInstance i =>
        simp only [registryCall]
        split
        · exact .refl _
        · exact seals_onProcess fun _ => ⟨rfl, rfl, rfl⟩
      | _ => exact .refl _
    · cases c with
      | removeHook h =>
        simp only [hooksCall]
        split
        · exact .refl _
        · exact seals_onProcess fun _ => ⟨rfl, rfl, rfl⟩
      | _ => exact .refl _
    · cases c <;> first | exact .refl _ | exact seals_onProcess fun _ => ⟨rfl, rfl, rfl⟩
    · cases c <;> first | exact .refl _ | exact seals_onProcess fun _ => ⟨rfl, rfl, rfl⟩
    · exact .refl _

theorem seals_foreignCall (s : Session) (t : ThreadId) (c : ForeignCall) :
    Seals s.world (s.foreignCall t c).2.world := by
  cases c with
  | start =>
    simp only [foreignCall, foreignStart]
    split
    · exact .refl _
    · split
      · exact .refl _
      · exact (Seals.start _ _).trans (.install _ _)
  | setProgramName bytes? =>
    simp only [foreignCall, foreignSetProgramName]
    split
    · split
      · next h =>
        obtain ⟨p, -, -, rfl⟩ := guarded_ok
          (fun p => (p.programName, fun q => { q with programName := _ })) h
        exact .of_same fun _ => ⟨rfl, rfl, rfl⟩
      · exact .refl _
    · exact .refl _
  | _ => exact .refl _

/-- Calls without an operation leave flags sealed. -/
theorem seals_plainCall (s : Session) (ctx : Context) (c : Call) :
    Seals s.world (s.plainCall ctx c).2.world := by
  cases c with
  | start p config? =>
    simp only [plainCall, startProcess]
    split
    · exact .refl _
    · exact .start _ _
  | focus c => exact seals_focusCall s ctx c
  | foreign c => exact seals_foreignCall s ctx.thread c
  | cell name c =>
    -- a cell is no part of the world
    refine .of_eq ?_ ?_ <;> simp only [plainCall] <;> split <;> try rfl
    all_goals cases c <;> simp only [cellCall] <;> (try split) <;> (try split) <;> rfl
  | keepInstalled p =>
    simp only [plainCall, keepInstalled]
    split <;> exact .refl _
  | endThread name => exact .of_eq rfl rfl
  | _ => exact .refl _

/-- A call that is done at once leaves flags sealed, unless it forces one. -/
theorem seals_served {c : Call} {o : Outcome} (hforce : c.forcesFlag = false)
    (h : s.Served ctx c o s') : Seals s.world s'.world := by
  cases h with
  | plain _ => exact seals_plainCall s ctx _
  | process _ _ _ => exact seals_plainProcessCall hforce
  | refused f => exact .refl _
  | drawn _ _ => exact .of_eq rfl rfl
  | shutdown _ hbegin => exact (Seals.beginShutdown hbegin).trans (.releaseKey _ _ _)

theorem seals_begins {d : Dispatch} (h : s.Begins t tok d s') : Seals s.world s'.world := by
  cases h with
  | @create parent? id w as? henroll =>
    have hseals := Seals.enroll s.world t tok parent?
    rw [henroll] at hseals
    exact hseals
  | destroy hwithdraw => exact .withdraw hwithdraw
  | shutdown hbegin => exact .beginShutdown hbegin

theorem seals_finishes {d : Dispatch} {p : Progress} (h : s.Finishes d p) :
    Seals s.world p.session.world := by
  have htear := Seals.tearDown s.world d.thread d.process d.target
  cases h with
  | create _ =>
    show Seals s.world (s.keepInstance _ _).world
    rw [world_keepInstance]
    exact .refl _
  | destroy _ | next _ => exact htear
  | shutdown _ => exact htear.trans (.releaseKey _ _ _)

theorem seals_registerHook (s : Session) (ctx : Context) (r : HookRequest) (steps : List Step) :
    Seals s.world (s.registerHook ctx r steps).2.world := by
  rcases registerHook_cases s ctx r steps with heq | ⟨tok, p, -, hworld, -, -⟩
  · rw [heq]
    exact .refl _
  · rw [hworld]
    exact .of_same fun _ => ⟨rfl, rfl, rfl⟩

/-! ## Closures -/

theorem seals_entered {steps : List Step} {b : Body} (h : s.Entered ctx steps b s') :
    Seals s.world s'.world := by
  cases h with
  | lock focus tokens ids htake =>
    obtain ⟨held, -, rfl⟩ := take_ok htake
    exact .of_eq rfl rfl
  | storage tokens hborrow => exact .of_local (borrow_ok hborrow).frame
  | attempt => exact .refl _

theorem seals_undo (s : Session) (b : Body) : Seals s.world (s.undo b).world := by
  unfold undo
  split <;> exact .of_eq rfl rfl

theorem seals_unwind (s : Session) (stack : List Frame) :
    Seals s.world (Machine.unwind s stack).1.world :=
  Machine.unwind_induction (P := fun s' _ => Seals s.world s'.world)
    (fun s' b _ h => h.trans (seals_undo s' b)) (fun _ _ _ _ h => h) (.refl _)

end Session

namespace Machine

open World Session

variable {allowed : Machine → Bool} {m m' : Machine} {sc : Scene} {ctx : Context} {tok : Token}

/-! ## Steps -/

/-- The next step sets a flag past the check of the phase. -/
def forcesFlag (m : Machine) : Bool := m.nextCall?.any (·.2.forcesFlag)

/-- A step that forces no flag keeps the seals. -/
theorem seals_turn (h : Turn m sc) (hforce : m.forcesFlag = false) :
    Seals m.session.world sc.session.world := by
  -- to make the thread known changes no process
  have hopening : ∀ ctx, Seals m.session.world (m.opening ctx).world := fun ctx => .of_eq rfl rfl
  cases h with
  | idle => exact .refl _
  | @served ctx c o s hcall hdone hserved =>
    have hnot : c.forcesFlag = false := by
      unfold forcesFlag at hforce
      rwa [hcall] at hforce
    have hserves : Seals (m.opening ctx).world s.world := seals_served hnot hserved
    exact (hopening ctx).trans hserves
  | @begins ctx p c tok d s job hcall hproc hrunning hbegins =>
    have hbegun : Seals (m.opening ctx).world s.world := seals_begins hbegins
    exact (hopening ctx).trans hbegun
  | @refused ctx => exact hopening ctx
  | @opens ctx on? o steps b s job hnext hent =>
    have hentered : Seals (m.opening ctx).world s.world := seals_entered (entered_of_enter hent)
    exact (hopening ctx).trans hentered
  | @registers ctx on? r steps => exact (hopening ctx).trans (seals_registerHook _ ctx r steps)
  | @fails ctx => exact (hopening ctx).trans (seals_unwind _ _)
  | @closes b => exact seals_undo m.session b
  | skips => exact .refl _
  | calls => exact .refl _
  | finishes hstack hfin hdone => exact seals_finishes (finishes_of_finish hdone)
  | goesOn hstack hfin hrunning => exact seals_finishes (finishes_of_finish hrunning)

/-- A step that forces no flag keeps the seals with its sweep, which can only drop processes. -/
theorem seals_step (hforce : m.forcesFlag = false) :
    Seals m.session.world m.step.session.world := by
  have hact : Seals m.session.world m.act.session.world := seals_turn (act_turn m) hforce
  obtain ⟨-, hproc, -, htoken⟩ := sweep_sub m.act.session m.actor m.act.heldTokens m.act.heldIds
  exact hact.trans (.of_sub hproc htoken)

/-- Flags stay sealed in every run in which none is forced. -/
theorem seals_of_run (hrun : Run allowed m m')
    (hforce : ∀ m₁, allowed m₁ = true → m₁.forcesFlag = false) :
    Seals m.session.world m'.session.world := by
  induction hrun with
  | refl => exact .refl _
  | step _ hallowed ih => exact ih.trans (seals_step (hforce _ hallowed))
  | redirect _ steps ih =>
    rw [world_redirect]
    exact ih

end Machine

end TieredState
