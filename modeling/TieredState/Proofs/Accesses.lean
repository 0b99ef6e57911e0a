import TieredState.Proofs.Atomicity
import TieredState.Proofs.Balance
import TieredState.Proofs.Dispatches
import TieredState.Proofs.Views

/-!
# Accesses under a lock

A closure on a global variable, on a cell or on the variables of a live instance is started when its
lock can be taken, and a call on a cell or on a global variable is answered when its lock is free for
the thread. So the locks that the thread holds decide whether the access is refused, and nothing else
does.

* `enter_of_asked`, `call_of_asked` — an access goes by the lock that it asks for.
* `locks_nested` — what a thread holds ascends in rank, is left as it was found by whatever begins and
  ends, is the same when a hook is called as when its operation began, and is what accesses are
  refused for.
-/

namespace TieredState

/-! ## The locks that are asked for -/

/-- The lock of the global variable that the call reads or changes. -/
def ProcessCall.lock? : ProcessCall → Option Lock
  | .instances | .count | .initial _ => some .registry
  | .shPath | .setShPath _ => some .shPath
  | .programName | .setProgramName _ => some .programName
  | .increment _ | .decrement _ => some .opRefcount
  | .recordAlloc _ | .recordFree _ | .allocStats => some .alloc
  | _ => none

/-- The lock that the cell is read and written under. A flag has none. -/
def LockedCell.lock? (c : LockedCell) : Option Lock := if c.kind = .flag then none else some c.lock

namespace Session

open World

/-- The lock that an opening asks for. -/
def lockOf? (s : Session) (ctx : Context) : Opening → Option Lock
  | .ofInstance i =>
    (s.instanceNamed ctx i).toOption.bind fun id =>
      if s.world.isLive id then some .instanceVars else none
  | .ofCurrent p =>
    (s.process p).toOption.bind fun tok =>
      (s.world.current ctx.thread tok).toOption.map fun _ => .instanceVars
  | .ofShared p shared => (s.process p).toOption.map fun tok => (sharedFocus tok shared).1
  | .ofCell c => (s.cellNamed c).toOption.bind fun named => named.2.lock?
  | .ofCellRead c =>
    (s.cellNamed c).toOption.bind fun named =>
      if named.2.kind = .readMostly then some named.2.lock else none
  | .ofThread _ | .ofHandle _ | .attempt => none

/-- The lock of what a step is to access: a cell, a global variable of a process that is not shut
down, or the variables of a live instance. -/
def asked? (s : Session) (ctx : Context) : Step → Option Lock
  | .closure _ o _ => s.lockOf? ctx o
  | .call _ (.cell name .read) | .call _ (.cell name (.write _)) =>
    (s.cellNamed name).toOption.bind fun named => named.2.lock?
  | .call _ (.process p c) =>
    (s.process p).toOption.bind fun tok => (s.world.live tok).toOption.bind fun _ => c.lock?
  | _ => none

variable {s : Session} {ctx : Context} {l : Lock}

/-! ## Closures -/

/-- What is current is live. -/
theorem current_live {w : World} {t : ThreadId} {tok : Token} {id : InstanceId}
    (h : w.current t tok = .ok id) : w.isLive id = true := by
  obtain ⟨p, -, h⟩ := bind_eq_ok.1 h
  unfold boundInstance at h
  split at h
  · cases h
  · next b _ =>
    unfold handleInstance at h
    split at h
    · next hlive => rwa [Except.ok.inj h] at hlive
    · cases h

/-- The closure is started with the lock, or refused with the error for which the lock cannot be
taken. -/
structure GoesBy (s : Session) (ctx : Context) (o : Opening) (steps : List Step) (l : Lock) : Prop where
  started : ∀ w, s.world.take ctx.thread l = .ok w →
    ∃ b : Body, b.owner = .lock l ∧ s.enter ctx o steps = .ok (b, s.withWorld w)
  refused : ∀ e, s.world.take ctx.thread l = .error e → s.enter ctx o steps = .error (.access e)

/-- What is opened by taking a lock goes by this lock. -/
theorem goesBy_of_eq {α : Type} {o : Opening} {steps : List Step} {a : α} {f : α → Body}
    (howner : (f a).owner = .lock l)
    (h : s.enter ctx o steps = s.opened ((s.world.take ctx.thread l).map (a, ·)) f) :
    s.GoesBy ctx o steps l where
  started w htake := by
    rw [h, htake]
    exact ⟨f a, howner, rfl⟩
  refused e htake := by
    rw [h, htake]
    rfl

/-- A closure goes by the lock that its opening asks for. -/
theorem enter_of_asked {o : Opening} (hasked : s.lockOf? ctx o = some l) (steps : List Step) :
    s.GoesBy ctx o steps l := by
  -- where a lock is asked for, the name is one that is there, and the lock is the one that is taken
  cases o with
  | ofInstance i =>
    obtain ⟨id, hname, hasked⟩ := Option.bind_eq_some_iff.1 hasked
    obtain ⟨hlive, hlock⟩ := Option.ite_none_right_eq_some.1 hasked
    obtain rfl := Option.some.inj hlock
    refine goesBy_of_eq (a := id)
      (f := fun id => lockedBody ctx .instanceVars (.instanceVars id) [] [id] steps) rfl ?_
    unfold enter
    dsimp only
    rw [toOption_eq_some.1 hname, ← enterInstance_of_isLive hlive]
    rfl
  | ofCurrent p =>
    obtain ⟨tok, hname, hasked⟩ := Option.bind_eq_some_iff.1 hasked
    obtain ⟨id, hcurrent, rfl⟩ := Option.map_eq_some_iff.1 hasked
    have hcurrent := toOption_eq_some.1 hcurrent
    refine goesBy_of_eq (a := id)
      (f := fun id => lockedBody ctx .instanceVars (.instanceVars id) [tok] [id] steps) rfl ?_
    unfold enter
    dsimp only
    rw [toOption_eq_some.1 hname, ← enterInstance_of_isLive (current_live hcurrent),
      ← enterCurrent_of_current hcurrent]
    rfl
  | ofShared p shared =>
    obtain ⟨tok, hname, rfl⟩ := Option.map_eq_some_iff.1 hasked
    refine goesBy_of_eq (a := ()) (f := fun _ =>
      lockedBody ctx (sharedFocus tok shared).1 (sharedFocus tok shared).2 [tok] [] steps) rfl ?_
    unfold enter
    dsimp only
    rw [toOption_eq_some.1 hname]
    rfl
  | ofCell c =>
    obtain ⟨⟨id, cell⟩, hname, hasked⟩ := Option.bind_eq_some_iff.1 hasked
    obtain ⟨hflag, hlock⟩ := Option.ite_none_left_eq_some.1 hasked
    obtain rfl := Option.some.inj hlock
    refine goesBy_of_eq (a := ()) (f := fun _ =>
      lockedBody ctx cell.lock (.text (.cell id) true) [] [] steps) rfl ?_
    unfold enter
    dsimp only
    rw [toOption_eq_some.1 hname]
    exact if_neg hflag
  | ofCellRead c =>
    obtain ⟨⟨id, cell⟩, hname, hasked⟩ := Option.bind_eq_some_iff.1 hasked
    obtain ⟨hread, hlock⟩ := Option.ite_none_right_eq_some.1 hasked
    obtain rfl := Option.some.inj hlock
    refine goesBy_of_eq (a := ()) (f := fun _ =>
      lockedBody ctx cell.lock (.text (.cell id) false) [] [] steps) rfl ?_
    unfold enter
    dsimp only
    rw [toOption_eq_some.1 hname]
    exact if_neg (not_not_intro hread)
  | ofThread p => cases hasked
  | ofHandle h => cases hasked
  | attempt => cases hasked

/-! ## Calls -/

/-- The call is answered when the lock is free for the thread, and is refused and changes nothing when
it is not. -/
structure AnswersBy (s : Session) (ctx : Context) (c : Call) (l : Lock) : Prop where
  answered : s.world.mayTake ctx.thread l = .ok () → ∃ a s', s.call ctx c = .done (.ok a) s'
  refused : ∀ e, s.world.mayTake ctx.thread l = .error e → s.call ctx c = .done (.error (.access e)) s

/-- A cell is read and written under its lock. -/
theorem answersBy_cell {name : Name} {c : CellCall} (hc : c = .read ∨ ∃ v, c = .write v)
    (hasked : (s.cellNamed name).toOption.bind (fun named => named.2.lock?) = some l) :
    s.AnswersBy ctx (.cell name c) l := by
  obtain ⟨⟨id, cell⟩, hname, hlock⟩ := Option.bind_eq_some_iff.1 hasked
  obtain ⟨hflag, hlock⟩ := Option.ite_none_left_eq_some.1 hlock
  obtain rfl := Option.some.inj hlock
  have hcall : s.call ctx (.cell name c) = .done (s.cellCall ctx.thread name id cell c).1
      (s.cellCall ctx.thread name id cell c).2 := by
    simp only [call, plainCall]
    rw [toOption_eq_some.1 hname]
  rw [show (⟨id, cell⟩ : CellId × LockedCell).2 = cell from rfl] at hflag ⊢
  constructor
  · intro hmay
    rw [hcall]
    rcases hc with rfl | ⟨v, rfl⟩
    · simp only [cellCall]
      rw [if_neg hflag, hmay]
      exact ⟨_, _, rfl⟩
    · simp only [cellCall]
      rw [if_neg hflag, hmay]
      exact ⟨_, _, rfl⟩
  · intro e hmay
    rw [hcall]
    rcases hc with rfl | ⟨v, rfl⟩
    · simp only [cellCall]
      rw [if_neg hflag, hmay]
      rfl
    · simp only [cellCall]
      rw [if_neg hflag, hmay]

/-- What comes of a call on a process that does one thing under a lock: it is answered with what is
found there, or refused with the error for which the lock is not free. -/
inductive UnderLock (s : Session) (t : ThreadId) (tok : Token) (l : Lock) : Outcome × Session → Prop
  | intro {α : Type} (found : Process → α) (r : Except AccessError α → Outcome × Session)
    (hok : ∀ a, ∃ b s', r (.ok a) = (.ok b, s')) (herror : ∀ e, r (.error e) = (.error (.access e), s)) :
    UnderLock s t tok l (r do
      let q ← s.world.live tok
      s.world.mayTake t l
      return found q)

/-- A call to a process is made under the lock that it asks for. -/
theorem underLock_plainProcessCall {c : ProcessCall} {tok : Token} (hlock : c.lock? = some l)
    (q : Process) : s.UnderLock ctx.thread tok l (s.plainProcessCall ctx tok q c) := by
  -- calls that tell something and calls that change something go through the same two checks
  have hanswer : ∀ {α : Type} (found : Process → α) (f : α → Answer) {l : Lock},
      s.UnderLock ctx.thread tok l (answer f (do
        let q ← s.world.live tok
        s.world.mayTake ctx.thread l
        return found q), s) :=
    fun found f _ => .intro found (answer f ·, s) (fun a => ⟨_, _, rfl⟩) fun _ => rfl
  have hchange : ∀ {α : Type} (found : Process → α × World) (f : α → Answer) {l : Lock},
      s.UnderLock ctx.thread tok l (s.change f (do
        let q ← s.world.live tok
        s.world.mayTake ctx.thread l
        return found q)) :=
    fun found f _ => .intro found (s.change f) (fun a => ⟨_, _, rfl⟩) fun _ => rfl
  cases c with
  | instances =>
    obtain rfl := Option.some.inj hlock
    exact hanswer (·.registry.members) .identities
  | count =>
    obtain rfl := Option.some.inj hlock
    exact hanswer (·.registry.size) number
  | initial as? =>
    obtain rfl := Option.some.inj hlock
    exact .intro (·.registry.initialMember?) (s.keepAnswer as?) (fun a => ⟨_, _, rfl⟩) fun _ => rfl
  | shPath =>
    obtain rfl := Option.some.inj hlock
    exact hanswer (·.shPath) .text
  | programName =>
    obtain rfl := Option.some.inj hlock
    exact hanswer (·.programName) .text
  | setShPath text =>
    obtain rfl := Option.some.inj hlock
    exact hchange (fun q => (q.shPath, _)) .text
  | setProgramName text =>
    obtain rfl := Option.some.inj hlock
    exact hchange (fun q => (q.programName, _)) .text
  | increment op =>
    obtain rfl := Option.some.inj hlock
    exact hchange (fun q => ((q.opRefs.increment op).1, _)) number
  | decrement op =>
    obtain rfl := Option.some.inj hlock
    exact hchange (fun q => ((q.opRefs.decrement op).1, _)) number
  | recordAlloc n =>
    obtain rfl := Option.some.inj hlock
    exact .intro (fun _ => _) s.effect (fun a => ⟨_, _, rfl⟩) fun _ => rfl
  | recordFree n =>
    obtain rfl := Option.some.inj hlock
    exact .intro (fun _ => _) s.effect (fun a => ⟨_, _, rfl⟩) fun _ => rfl
  | allocStats =>
    obtain rfl := Option.some.inj hlock
    exact hanswer (·.allocStats) .allocStats
  | _ => cases hlock

/-- A global variable is read and changed under its lock. -/
theorem answersBy_process {p : Name} {c : ProcessCall} {tok : Token} {q : Process}
    (hproc : s.process p = .ok tok) (hlive : s.world.live tok = .ok q) (hlock : c.lock? = some l) :
    s.AnswersBy ctx (.process p c) l := by
  have hplain : c.isLifecycle = false := by
    cases c <;> first | rfl | cases hlock
  have hcall : s.call ctx (.process p c) = _ := call_of_plain hproc (live_ok.1 hlive).1 hplain
  have hunder : s.UnderLock ctx.thread tok l (s.plainProcessCall ctx tok q c) :=
    underLock_plainProcessCall hlock q
  generalize s.plainProcessCall ctx tok q c = r at hcall hunder
  cases hunder with
  | intro found r hok herror =>
    rw [hlive] at hcall
    constructor
    · intro hmay
      rw [hmay] at hcall
      obtain ⟨b, s', hr⟩ := hok (found q)
      exact ⟨b, s', hcall.trans (congrArg (fun r => Progress.done r.1 r.2) hr)⟩
    · intro e hmay
      rw [hmay] at hcall
      exact hcall.trans (congrArg (fun r => Progress.done r.1 r.2) (herror e))

/-- A call goes by the lock that it asks for. -/
theorem call_of_asked {on? : Option String} {c : Call} (h : s.asked? ctx (.call on? c) = some l) :
    s.AnswersBy ctx c l := by
  unfold asked? at h
  split at h
  · next heq => cases heq
  · next heq =>
    obtain ⟨-, rfl⟩ := Step.call.inj heq
    exact answersBy_cell (.inl rfl) h
  · next v heq =>
    obtain ⟨-, rfl⟩ := Step.call.inj heq
    exact answersBy_cell (.inr ⟨v, rfl⟩) h
  · next p c' heq =>
    obtain ⟨-, rfl⟩ := Step.call.inj heq
    obtain ⟨tok, hproc, h⟩ := Option.bind_eq_some_iff.1 h
    obtain ⟨q, hlive, hlock⟩ := Option.bind_eq_some_iff.1 h
    exact answersBy_process (toOption_eq_some.1 hproc) (toOption_eq_some.1 hlive) hlock
  · cases h

end Session

namespace Machine

open World Session

variable {allowed : Machine → Bool} {m m' : Machine} {ctx : Context} {step : Step} {l : Lock}

/-! ## Steps -/

/-- A closure that is started is on top of what was under way. -/
theorem frames_act_of_enter {on? : Option String} {op : Opening} {steps : List Step} {b : Body}
    {s : Session} (hnext : m.next? = some (ctx, .closure on? op steps))
    (henter : (m.opening ctx).enter ctx op steps = .ok (b, s)) :
    ∃ job, m.act.frames = Frame.shell (.body { b with job }) :: m.frames := by
  obtain ⟨m₁, hsession, hstack, -, hact⟩ := act_of_next? hnext
  refine ⟨(Step.closure on? op steps).on?.isSome, ?_⟩
  rw [hact]
  unfold perform
  dsimp only
  rw [hsession, henter]
  unfold frames
  rw [List.map_cons, hstack]

/-- What an access comes to that asks for a lock. -/
structure GuardedBy (m : Machine) (ctx : Context) (step : Step) (l : Lock) : Prop where
  /-- It is refused for the sake of the highest ranked lock that the thread holds, when that ranks no
  lower. The closure is not started, and nothing is changed. -/
  refused : (∃ x ∈ m.session.world.holds ctx.thread, l.rank ≤ x.rank) →
    ∃ top ∈ m.session.world.holds ctx.thread, l.rank ≤ top.rank ∧
      (∀ x ∈ m.session.world.holds ctx.thread, x.rank ≤ top.rank) ∧
      m.step.told? = some (.error (.access (.lockOrder top l))) ∧
      m.step.scene = .of (m.opening ctx) m.stack
  /-- Otherwise the closure is started with the lock, or the call is answered. -/
  granted : (∀ x ∈ m.session.world.holds ctx.thread, x.rank < l.rank) →
    match step with
    | .closure _ _ _ => ∃ b : Body, b.owner = .lock l ∧ m.step.frames = .body b :: m.frames
    | _ => ∃ a, m.step.told? = some (.ok a)

theorem holds_opening (m : Machine) (ctx : Context) :
    (m.opening ctx).world.holds = m.session.world.holds := (Steady.touch _ _).holds

/-- A step that asks for a lock is guarded by it. -/
theorem guardedBy_of_asked (hkept : m.Kept) (hnext : m.next? = some (ctx, step))
    (hasked : (m.opening ctx).asked? ctx step = some l) : m.GuardedBy ctx step l := by
  have hheld : (m.opening ctx).world.holds ctx.thread = m.session.world.holds ctx.thread := by
    rw [holds_opening]
  -- what is refused leaves a scene of which nothing is dropped
  have hstep : m.act.scene = .of (m.opening ctx) m.stack → m.step = m.act := fun hscene =>
    step_eq_act ((kept_of_scene hscene).2 ⟨hkept.processes, hkept.instances⟩)
  constructor
  · rintro ⟨x, hx, hle⟩
    rw [← hheld] at hx ⊢
    obtain ⟨top, htop, hrank, hhighest, htake, hmay⟩ := refused_of_le hx hle
    refine ⟨top, htop, hrank, hhighest, ?_⟩
    have htold : m.act.told? = some (.error (.access (.lockOrder top l))) ∧
        m.act.scene = .of (m.opening ctx) m.stack := by
      refine told?_act hnext ?_
      cases step with
      | closure on? op steps =>
        exact .inl ⟨on?, op, steps, _, rfl, rfl, rfl, (enter_of_asked hasked steps).refused _ htake⟩
      | call on? c =>
        refine .inr ⟨on?, c, rfl, ?_, (call_of_asked hasked).refused _ hmay⟩
        rintro rfl
        cases hasked
      | register on? r steps => cases hasked
    rw [hstep htold.2]
    exact htold
  · intro hbelow
    rw [← hheld] at hbelow
    cases step with
    | closure on? op steps =>
      obtain ⟨w, htake⟩ := take_of_lt hbelow
      obtain ⟨b, howner, henter⟩ := (enter_of_asked hasked steps).started w htake
      obtain ⟨job, hframes⟩ := frames_act_of_enter hnext henter
      exact ⟨{ b with job, pending := [], done := [] }, howner, hframes⟩
    | call on? c =>
      obtain ⟨a, s, hcall⟩ := (call_of_asked hasked).answered (mayTake_ok.2 hbelow)
      have hfail : c ≠ .fail := by
        rintro rfl
        cases hasked
      obtain ⟨htold, -⟩ := told?_act hnext (.inr ⟨on?, c, rfl, hfail, hcall⟩)
      exact ⟨a, htold⟩
    | register on? r steps => cases hasked

/-! ## Everything that begins and ends -/

/-- A hook is called by the operation on top, and nothing happens to the world thereby. -/
theorem world_of_called? {d : Dispatch} {c : CallbackId} (h : m.called? = some (d, c)) :
    m.step.session.world.holds = m.session.world.holds ∧
      ∃ job below, m.stack = .dispatch d job :: below := by
  obtain ⟨callback, rest, job, below, -, -, hstack, -, hsession⟩ := act_of_called? h
  refine ⟨?_, job, below, hstack⟩
  have hact : m.act.session.world = m.session.world := by
    rw [hsession]
    split <;> rfl
  rw [← hact]
  exact holds_sweep _ _ _ _

/-- What was found at `m` is found again later, at `m'`. -/
structure Restored (m m' : Machine) : Prop where
  /-- What was under way still is. -/
  below : m.frames <:+ m'.frames
  /-- When nothing else is, every thread holds what it held. -/
  left : m'.frames = m.frames → m'.session.world.holds = m.session.world.holds
  /-- Neither does a thread hold anything else when an operation calls a hook that has begun since. -/
  hook : ∀ d c, m'.called? = some (d, c) → m'.stack.length = m.stack.length + 1 →
    m'.session.world.holds = m.session.world.holds ∧
      m'.step.session.world.holds = m.session.world.holds
  /-- When some of what was under way is unwound, every thread holds what it held, less what was held
  for that. -/
  unwound : m'.settled = true → m'.keeps m.stack.length = false →
    ∃ gone, m.frames = gone ++ m'.step.frames ∧
      m'.step.session.world.holds = givenBack m.session.world.holds gone

/-- The next step is settled and leaves at least `n` frames under way. -/
def stays (n : Nat) (m : Machine) : Bool := m.settled && m.keeps n

/-- What was found at a point is found again in every run that stays above it. -/
theorem restored_of_run (hm : m.Balanced) (hcode : CodeOnTop m.frames)
    (hrun : Run (stays m.stack.length) m m') : m.Restored m' := by
  have hstays : ∀ m₁ : Machine, m₁.stays m.stack.length = true →
      m₁.settled = true ∧ m₁.keeps m.stack.length = true := fun m₁ h => Bool.and_eq_true_iff.1 h
  have hm' : m'.Balanced := balanced_of_run hm hrun fun m₁ h => (hstays m₁ h).1
  have hbelow : m.frames <:+ m'.frames := frames_of_keeps hcode hrun fun m₁ h => (hstays m₁ h).2
  refine ⟨hbelow, ?_, ?_, ?_⟩
  · intro hframes
    rw [hm'.tracked, hframes, ← hm.tracked]
  · intro d c hcalled hlength
    obtain ⟨hstep, job, below, hstack⟩ := world_of_called? hcalled
    have hholds : m'.session.world.holds = m.session.world.holds := by
      -- below the operation is what was under way
      rw [frames_of_dispatch hstack] at hbelow
      rcases List.suffix_cons_iff.1 hbelow with heq | hrest
      · exact absurd heq (hcode _ _ _)
      · have hlast : below.map Frame.shell = m.frames := by
          refine (hrest.eq_of_length ?_).symm
          rw [hstack, List.length_cons] at hlength
          rw [length_frames, List.length_map]
          omega
        rw [hm'.tracked, frames_of_dispatch hstack, locksOf_dispatch, hlast, ← hm.tracked]
    exact ⟨hholds, hstep.trans hholds⟩
  · intro hsettled hleaves
    have hshort : m'.step.stack.length < m.frames.length := by
      rw [length_frames]
      exact Nat.lt_of_not_le (of_decide_eq_false hleaves)
    obtain ⟨gone, hgone⟩ := frames_of_leaves hcode hbelow hshort
    refine ⟨gone, hgone.symm, ?_⟩
    rw [(balanced_step hsettled hm').tracked, hm.tracked, ← hgone, givenBack_locksOf]

/-- At every point of every run, whatever is nested in what: the locks that a thread holds ascend in
rank. When the code at hand takes a step, then whatever that begins leaves every thread with the locks
that it held, by whichever way it ends, and each hook that an operation calls thereby is called with
them. And if the step accesses something that has a lock, it is refused exactly when its thread holds
one that ranks no lower. -/
theorem locks_nested (hm : Reachable settled m) :
    (∀ t, (m.session.world.holds t).Pairwise (·.rank < ·.rank)) ∧
    ∀ ctx step, m.next? = some (ctx, step) →
      (∀ m', Run (stays m.stack.length) m m' → m.Restored m') ∧
      ∀ l, (m.opening ctx).asked? ctx step = some l → m.GuardedBy ctx step l := by
  have hbalanced := balanced_of_reachable hm
  refine ⟨fun t => ?_, fun ctx step hnext => ⟨fun m' hrun => ?_, fun l hasked => ?_⟩⟩
  · rw [hbalanced.tracked]
    exact hbalanced.ascending t
  · exact restored_of_run hbalanced (codeOnTop_of_next? hnext) hrun
  · exact guardedBy_of_asked (kept_of_reachable hm) hnext hasked

/-- A program that destroys an instance from within a closure on a cell, and then reads the cell from
within. -/
def destroyedInCell : Machine :=
  start default default 0 [
    .call none (.start "p" none),
    .call none (.process "p" (.create (some "i"))),
    .register none ⟨some "p", .destroyed, none, "d", 1⟩ [.call none .heldLocks],
    .call none (.newCell "c" .guarded ⟨"c", 5⟩ (.text "")),
    .closure none (.ofCell "c") [
      .call none (.process "p" (.destroy "i")),
      .call none (.cell "c" .read)]]

/-- The hook is called with the lock of the cell, and the cell is not read under its own lock. -/
theorem held_in_cell :
    ((destroyedInCell.run 6).Restored (destroyedInCell.run 7) ∧
      (destroyedInCell.run 7).called?.isSome = true) ∧
    ∃ top, (destroyedInCell.run 11).step.told? =
      some (.error (.access (.lockOrder top ⟨"c", 5⟩))) := by
  constructor
  · have hreach : Reachable settled (destroyedInCell.run 6) := .of_run (by decide +kernel)
    have hrun : Run (stays (destroyedInCell.run 6).stack.length) (destroyedInCell.run 6)
        ((destroyedInCell.run 6).run 1) := .of_run (by decide +kernel)
    have hnext : (destroyedInCell.run 6).next?.isSome = true := by decide +kernel
    obtain ⟨⟨ctx, step⟩, hnext⟩ := Option.isSome_iff_exists.1 hnext
    exact ⟨((locks_nested hreach).2 ctx step hnext).1 _ hrun, by decide +kernel⟩
  · have hreach : Reachable settled (destroyedInCell.run 11) := .of_run (by decide +kernel)
    have hasks : (destroyedInCell.run 11).next?.any (fun r =>
        decide (((destroyedInCell.run 11).opening r.1).asked? r.1 r.2 = some ⟨"c", 5⟩) &&
        ((destroyedInCell.run 11).session.world.holds r.1.thread).any (5 ≤ ·.rank)) = true := by
      decide +kernel
    obtain ⟨⟨ctx, step⟩, hnext, hasks⟩ := (Option.any_eq_true _ _).1 hasks
    obtain ⟨hasked, hheld⟩ := Bool.and_eq_true_iff.1 hasks
    obtain ⟨x, hx, hrank⟩ := List.any_eq_true.1 hheld
    have hguarded := ((locks_nested hreach).2 ctx step hnext).2 _ (of_decide_eq_true hasked)
    obtain ⟨top, -, -, -, htold, -⟩ := hguarded.refused ⟨x, hx, of_decide_eq_true hrank⟩
    exact ⟨top, htold⟩

end Machine

end TieredState
