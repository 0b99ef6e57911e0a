import TieredState.Proofs.Atomicity
import TieredState.Proofs.Closed
import TieredState.Proofs.Teardown

/-!
# Shutdown is complete

A shutdown empties the registry and then tears down what was in it, one instance after the other from
the newest to the oldest, with hooks at each that may do anything. When it returns the instances are
dead, the thread that called it is unbound, and the process is closed for good.

* `Returns` — the call of an operation and its return, with the steps in between.
* `Underway` — how far a shutdown has come. `underway_step` carries it over a step, and
  `Underway.ended` is what it amounts to at the last one.
* `shutdown_complete` — what a shutdown has done when it returns, wherever it was called from.
* `access_after_shutdown` — it does not take access from other threads that are bound to an instance
  which a destruction was tearing down already.
-/

namespace TieredState.Machine

open World Session

/-! ## What a shutdown does at its own level -/

/-- The next step is orderly, and more than `k` dispatches are under way. -/
def deeper (k : Nat) (m : Machine) : Bool := m.orderly && decide (k < m.dispatches.length)

/-- The operation that is called by the next step of `m₀` returns by the next step of `m`. The steps
in between are taken at the machines `past`, the latest first. -/
inductive Returns (m₀ : Machine) : List Machine → Machine → Prop
  | atOnce (hends : m₀.step.dispatches.length = m₀.dispatches.length) : Returns m₀ [] m₀
  /-- Hooks run before it returns. -/
  | later {past : List Machine} {m : Machine}
    (htrace : Trace (deeper m₀.dispatches.length) m₀.step past m)
    (hlast : m.deeper m₀.dispatches.length = true)
    (hends : m.step.dispatches.length ≤ m₀.dispatches.length) : Returns m₀ (past ++ [m₀]) m

/-- The instance whose teardown the next step begins above `k` dispatches, with the hooks that the
process has for it. -/
def teardown? (k : Nat) (tok : Token) (m : Machine) : Option (InstanceId × List CallbackId) :=
  if m.act.dispatches.length = k + 1 then
    m.begun?.map fun d => (d.target, m.session.world.listed tok .destroyed)
  else none

/-- The hook that the next step calls right above `k` dispatches, and the instance it is called for. -/
def hookCall? (k : Nat) (m : Machine) : Option (InstanceId × CallbackId) :=
  if m.dispatches.length = k + 1 then m.called?.map fun r => (r.1.target, r.2) else none

/-- The instances that were torn down above `k` dispatches, in order, each with the hooks that the
process had for it. -/
def teardowns (k : Nat) (tok : Token) (past : List Machine) : List (InstanceId × List CallbackId) :=
  past.reverse.filterMap (teardown? k tok)

/-- The hooks that were called right above `k` dispatches, in order, each with its instance. -/
def hookCalls (k : Nat) (past : List Machine) : List (InstanceId × CallbackId) :=
  past.reverse.filterMap (hookCall? k)

variable {m m₀ m₁ m' : Machine} {past : List Machine} {k : Nat} {ctx : Context} {name : Name}
  {t : ThreadId} {tok : Token} {p : Process} {ids torn : List InstanceId} {id : InstanceId}
  {base nested : List Dispatch} {d : Dispatch}

/-- What the latest step begins to tear down comes last. -/
theorem teardowns_cons :
    teardowns k tok (m :: past) = teardowns k tok past ++ (m.teardown? k tok).toList := by
  unfold teardowns
  rw [List.reverse_cons, List.filterMap_append]
  cases h : m.teardown? k tok <;> simp [h]

/-- The hook that the latest step calls comes last. -/
theorem hookCalls_cons :
    hookCalls k (m :: past) = hookCalls k past ++ (m.hookCall? k).toList := by
  unfold hookCalls
  rw [List.reverse_cons, List.filterMap_append]
  cases h : m.hookCall? k <;> simp [h]

/-- A step that begins no dispatch tears nothing down. -/
theorem teardown?_of_none (h : m.begun? = none) : m.teardown? k tok = none := by
  unfold teardown?
  rw [h, Option.map_none, ite_self]

/-- A step that calls no hook calls none above the dispatches. -/
theorem hookCall?_of_none (h : m.called? = none) : m.hookCall? k = none := by
  unfold hookCall?
  rw [h, Option.map_none, ite_self]

@[simp] theorem dispatches_step (m : Machine) : m.step.dispatches = m.act.dispatches := rfl

/-- What is condemned is so by the dispatches under way. -/
theorem condemned_eq (m : Machine) : m.condemned = m.dispatches.flatMap Dispatch.condemned := by
  have hframe : ∀ f : Frame, f.condemned = f.dispatches.flatMap Dispatch.condemned := by
    intro f
    cases f with
    | body b => rfl
    | dispatch d job => exact (List.append_nil _).symm
  unfold condemned dispatches
  rw [List.flatMap_assoc]
  exact congrArg m.stack.flatMap (funext hframe)

/-! ## The call -/

/-- A call leaves the dispatches as they are, or begins one above them. -/
theorem dispatches_of_nextCall? {c : Call} (h : m.nextCall? = some (ctx, c)) (hfail : c ≠ .fail) :
    m.act.dispatches = ((m.opening ctx).call ctx c).running?.toList ++ m.dispatches := by
  obtain ⟨job, hscene⟩ := act_of_nextCall? h hfail
  cases hcall : (m.opening ctx).call ctx c with
  | done o s =>
    rw [hcall] at hscene
    exact (act_of_scene hscene).1
  | running d s =>
    rw [hcall] at hscene
    exact (act_of_scene hscene).1

/-- What the call has done to the process and to what is under way: the instances `ids` are taken from
its registry, and it is shut down. -/
structure Drains (m : Machine) (tok : Token) (ids : List InstanceId) : Prop where
  closed : m.act.session.world.Closed tok
  there : ∃ p, m.act.session.world.processes.get? tok = some p
  unbinds : Unbinds tok m.session.world m.act.session.world
  condemned : m.act.condemned = ids ++ m.condemned

/-- What comes of the call of a shutdown. -/
inductive Drained (m : Machine) (t : ThreadId) (tok : Token) : List InstanceId → Prop
  | refused {ids : List InstanceId} {f : Fault} (hreturned : m.returned? = some (.error f))
    (hact : m.act.dispatches = m.dispatches) : Drained m t tok ids
  /-- There is nothing to tear down. -/
  | done (hdrains : m.Drains tok []) (hreturned : m.returned? = some (.ok (.number 0)))
    (hbegun : m.begun? = none) (hcalled : m.called? = none)
    (hact : m.act.dispatches = m.dispatches)
    (hunbound : m.act.session.world.bindingState t tok = .unbound) : Drained m t tok []
  | begins {id : InstanceId} {rest : List InstanceId} {d : Dispatch}
    (hdrains : m.Drains tok (id :: rest)) (hbegun : m.begun? = some d) (hcalled : m.called? = none)
    (hact : m.act.dispatches = d :: m.dispatches)
    (hd : d = ⟨t, tok, id, m.session.world.listed tok .destroyed,
      .shutdown rest (rest.length + 1), none⟩) : Drained m t tok (id :: rest)

/-- Of a call of a shutdown, what is returned at once. -/
theorem returned?_of_shutdown (hcall : m.nextCall? = some (ctx, .process name .shutdown)) :
    m.returned? = ((m.opening ctx).call ctx (.process name .shutdown)).outcome? := by
  obtain ⟨on?, hnext⟩ := next?_of_nextCall? hcall
  unfold returned?
  rw [(idle_of_next? hnext).1, hcall]
  rfl

/-- A shutdown finds the process and takes its registry. -/
theorem call_shutdown (hproc : m.session.process name = .ok tok) :
    (m.opening ctx).call ctx (.process name .shutdown) =
      (m.opening ctx).beginShutdown ctx.thread tok := by
  simp only [call]
  rw [process_opening, hproc]
  rfl

/-- When the registry is taken nobody is bound anew, and the process is still there. -/
theorem taken_of_beginShutdown {w : World} (hp : m.session.world.processes.get? tok = some p)
    (hw : (m.opening ctx).world.beginShutdown ctx.thread tok = .ok (ids, w)) :
    ids = p.registry.members.reverse ∧ w.processes.get? tok = some (drained p.registry p) ∧
      Unbinds tok m.session.world w ∧
      w.listed tok .destroyed = m.session.world.listed tok .destroyed := by
  obtain ⟨q, hq, hids, hdrained⟩ := beginShutdown_ok hw
  obtain rfl : p = q := Option.some.inj (hp.symm.trans (live_ok.1 hq).1)
  refine ⟨hids, ?_, .of_eq fun t => ?_, ?_⟩
  · rw [hdrained]
    exact (get?_modifyProcess_eq_some _ _ _).2 (.inl ⟨rfl, p, hp, rfl⟩)
  · rw [hdrained, ← thread_opening m ctx t]
    rfl
  · rw [hdrained]
    exact listed_modifyProcess (f := drained p.registry) (fun _ => rfl) tok .destroyed

/-- The call of a shutdown drains the registry, or is refused and drains nothing. -/
theorem drained_of_call (hs : m.Sound) (hcall : m.nextCall? = some (ctx, .process name .shutdown))
    (hproc : m.session.process name = .ok tok) (hp : m.session.world.processes.get? tok = some p) :
    m.Drained ctx.thread tok p.registry.members.reverse := by
  -- to make the thread known is calm, so the registry is that of the world before
  have hsound : RegistrySound (m.opening ctx).world m.condemned :=
    hs.registry.calm (calm_setThread_thread m.session.world ctx.thread)
  have hreturned := returned?_of_shutdown hcall
  obtain ⟨hbegun, hcalled⟩ := begun_of_nextCall? hcall
  obtain ⟨job, hscene⟩ := act_of_nextCall? hcall (by simp)
  rw [call_shutdown hproc] at hreturned hbegun hscene
  cases hw : (m.opening ctx).world.beginShutdown ctx.thread tok with
  | error e =>
    have hrefused : (m.opening ctx).beginShutdown ctx.thread tok =
        .done (.error (.access e)) (m.opening ctx) := by
      unfold Session.beginShutdown
      rw [hw]
    rw [hrefused] at hreturned hscene
    exact .refused hreturned (act_of_scene hscene).1
  | ok r =>
    obtain ⟨ids, w⟩ := r
    have hclosed := closed_of_beginShutdown hsound hw
    obtain ⟨hids, hthere, hunbinds, hlisted⟩ := taken_of_beginShutdown hp hw
    rw [← hids]
    cases ids with
    | nil =>
      rw [beginShutdown_nil hw] at hreturned hbegun hscene
      obtain ⟨hact, hworld⟩ := act_of_scene hscene
      refine .done ⟨?_, ?_, ?_, ?_⟩ hreturned hbegun hcalled hact ?_
      · rw [hworld]
        exact hclosed.courses (.of_rests (.releaseKey w ctx.thread tok))
      · rw [hworld]
        exact ⟨_, (get?_modifyProcess_eq_some _ _ _).2 (.inl ⟨rfl, _, hthere, rfl⟩)⟩
      · rw [hworld]
        exact hunbinds.trans (.releaseKey w ctx.thread tok)
      · rw [condemned_eq, condemned_eq, hact]
        rfl
      · rw [hworld]
        exact (bindingState_releaseKey _ _ _ _ _).trans (if_pos ⟨rfl, rfl⟩)
    | cons id rest =>
      rw [beginShutdown_cons hw] at hbegun hscene
      obtain ⟨hact, hworld⟩ := act_of_scene hscene
      refine .begins ⟨?_, ?_, ?_, ?_⟩ hbegun hcalled hact (by rw [hlisted])
      · rw [hworld]
        exact hclosed
      · rw [hworld]
        exact ⟨_, hthere⟩
      · rw [hworld]
        exact hunbinds
      · rw [condemned_eq, condemned_eq, hact]
        rfl

/-! ## Steps of a shutdown -/

/-- What a step does to a shutdown whose dispatch `d` is right above the dispatches `base`. -/
inductive ShutdownTurn (m : Machine) (tok : Token) (base : List Dispatch) (d : Dispatch) : Prop
  /-- It is a step of what hooks have begun. -/
  | aside (nested : List Dispatch) (hact : m.act.dispatches = nested ++ d :: base)
    (hteardown : m.teardown? base.length tok = none) (hcall : m.hookCall? base.length = none)
  | calls {c : CallbackId} {rest : List CallbackId} (hpending : d.pending = c :: rest)
    (hact : m.act.dispatches = { d with pending := rest } :: base)
    (hteardown : m.teardown? base.length tok = none)
    (hcall : m.hookCall? base.length = some (d.target, c))
  | goesOn {id : InstanceId} {rest : List InstanceId} {d' : Dispatch} {count : Nat}
    (hmarks : m.Marks d.thread d.process d.target) (hpending : d.pending = [])
    (htask : d.task = .shutdown (id :: rest) count)
    (hd' : d' = ⟨d.thread, d.process, id, m.session.world.listed tok .destroyed,
      .shutdown rest count, none⟩)
    (hact : m.act.dispatches = d' :: base)
    (hteardown : m.teardown? base.length tok = some (id, m.session.world.listed tok .destroyed))
    (hcall : m.hookCall? base.length = none)
  | ends (hpending : d.pending = []) (hawait : d.awaiting = []) (hstack : m.dispatches = d :: base)
    (hact : m.act.dispatches = base) (hteardown : m.teardown? base.length tok = none)
    (hcall : m.hookCall? base.length = none)

/-- Whatever runs above a shutdown, be it operations that hooks have called, leaves it alone. -/
theorem shutdownTurn_of_nested {d₁ : Dispatch} (hturn : DispatchTurn m)
    (hstack : m.dispatches = d₁ :: nested ++ d :: base) : m.ShutdownTurn tok base d := by
  have hlength : m.dispatches.length = nested.length + base.length + 2 := by
    rw [hstack, List.length_append, List.length_cons, List.length_cons]
    omega
  -- while there are dispatches above that of the shutdown, nothing that happens is its doing
  have hcall : m.hookCall? base.length = none := by
    unfold hookCall?
    rw [if_neg (by omega)]
  have hteardown : m.dispatches.length ≤ m.act.dispatches.length →
      m.teardown? base.length tok = none := by
    intro hlonger
    unfold teardown?
    rw [if_neg (by omega)]
  cases hturn with
  | still hbegun _ hact =>
    exact .aside (d₁ :: nested) (hact.trans hstack) (teardown?_of_none hbegun) hcall
  | @creates d₂ hbegun _ hact | @removes d₂ hbegun _ hact =>
    have hlonger := congrArg List.length hact
    rw [List.length_cons] at hlonger
    exact .aside (d₂ :: d₁ :: nested) (hact.trans (congrArg (d₂ :: ·) hstack)) (hteardown (by omega))
      hcall
  | @calls d₂ ds c rest hbegun _ hstack' _ hact =>
    obtain ⟨rfl, rfl⟩ := List.cons.inj (hstack'.symm.trans hstack)
    exact .aside ({ d₂ with pending := rest } :: nested) hact (teardown?_of_none hbegun) hcall
  | @finishes d₂ ds hbegun _ hstack' _ _ hact =>
    obtain ⟨rfl, rfl⟩ := List.cons.inj (hstack'.symm.trans hstack)
    exact .aside nested hact (teardown?_of_none hbegun) hcall
  | @goesOn d₂ d' ds hbegun _ hstack' _ hact =>
    have hsame : m.act.dispatches.length = m.dispatches.length := by rw [hact, hstack']; rfl
    obtain ⟨rfl, rfl⟩ := List.cons.inj (hstack'.symm.trans hstack)
    exact .aside (d' :: nested) hact (hteardown (Nat.le_of_eq hsame.symm)) hcall

/-- When a dispatch takes the place of the one on top, it is that one's operation that goes on. -/
theorem finishing_of_goesOn {d' : Dispatch} (hbegun : m.begun? = some d')
    (hstack : m.dispatches = d :: base) (hact : m.act.dispatches = d' :: base) :
    m.finishing? = some d := by
  cases hfin : m.finishing? with
  | some d₁ =>
    obtain ⟨job, below, hstack', -⟩ := act_of_finishing? hfin
    obtain ⟨rfl, -⟩ := List.cons.inj ((dispatches_of_dispatch hstack').symm.trans hstack)
    rfl
  | none =>
    -- a call would put it above
    unfold begun? at hbegun
    rw [hfin] at hbegun
    obtain ⟨⟨ctx, c⟩, hcall, hrunning⟩ := Option.bind_eq_some_iff.1 hbegun
    have hfail : c ≠ .fail := by
      rintro rfl
      cases hrunning
    have hrunning : ((m.opening ctx).call ctx c).running? = some d' := hrunning
    have hlonger := congrArg List.length (dispatches_of_nextCall? hcall hfail)
    rw [hrunning, hact, hstack] at hlonger
    simp at hlonger

/-- A step at the dispatch of a destruction does what is said of it. -/
theorem shutdownTurn_of_top (hturn : DispatchTurn m) (heased : m.Eased)
    (hstack : m.dispatches = d :: base) (hprocess : d.process = tok) (hevent : d.event = .destroyed) :
    m.ShutdownTurn tok base d := by
  cases hturn with
  | still hbegun hcalled hact =>
    exact .aside [] (hact.trans hstack) (teardown?_of_none hbegun) (hookCall?_of_none hcalled)
  | @creates d₂ hbegun hcalled hact | @removes d₂ hbegun hcalled hact =>
    rw [hstack] at hact
    refine .aside [d₂] hact ?_ (hookCall?_of_none hcalled)
    unfold teardown?
    rw [hact, if_neg]
    simp
  | @calls d₂ ds c rest hbegun hcalled hstack' hpending hact =>
    obtain ⟨rfl, rfl⟩ := List.cons.inj (hstack'.symm.trans hstack)
    refine .calls hpending hact (teardown?_of_none hbegun) ?_
    unfold hookCall?
    rw [hstack, if_pos List.length_cons, hcalled]
    rfl
  | @finishes d₂ ds hbegun hcalled hstack' hpending hawait hact =>
    obtain ⟨rfl, rfl⟩ := List.cons.inj (hstack'.symm.trans hstack)
    exact .ends hpending hawait hstack' hact (teardown?_of_none hbegun) (hookCall?_of_none hcalled)
  | @goesOn d₂ d' ds hbegun hcalled hstack' hpending hact =>
    obtain ⟨rfl, rfl⟩ := List.cons.inj (hstack'.symm.trans hstack)
    have hfin := finishing_of_goesOn hbegun hstack' hact
    obtain ⟨job, below, hframes, -⟩ := act_of_finishing? hfin
    rw [(begun_of_finishing? hfin).1] at hbegun
    -- only a shutdown goes on to a next instance, and it takes the hooks that are listed by then
    rcases finish_cases (able_of_eased heased hframes).1 with
      ⟨a, s, hdone, -⟩ | ⟨id, rest, count, htask, hrunning⟩
    · rw [hdone] at hbegun
      cases hbegun
    · have hmarks : m.Marks d₂.thread d₂.process d₂.target :=
        ⟨d₂, hfin, fun as? => htask ▸ nofun, rfl, rfl, rfl⟩
      have hlisted : (m.session.world.tearDown d₂.thread d₂.process d₂.target).listed d₂.process
          .destroyed = m.session.world.listed tok .destroyed := by
        rw [← hprocess]
        exact listed_congr (processes_tearDown _ _ _ _) _ _
      rw [hrunning, hlisted] at hbegun
      have hd' := (Option.some.inj hbegun).symm
      refine .goesOn hmarks hpending htask hd' hact ?_ (hookCall?_of_none hcalled)
      unfold teardown?
      rw [hact, if_pos (by simp), (begun_of_finishing? hfin).1, hrunning, hlisted]
      rfl

/-- The step that takes the dispatch off the stack is the one that ends the shutdown. -/
theorem ShutdownTurn.ends_of_le (h : m.ShutdownTurn tok base d)
    (hends : m.step.dispatches.length ≤ base.length) :
    d.pending = [] ∧ d.awaiting = [] ∧ m.dispatches = d :: base ∧ m.act.dispatches = base ∧
      m.teardown? base.length tok = none ∧ m.hookCall? base.length = none := by
  rw [dispatches_step] at hends
  cases h with
  | ends hpending hawait hstack hact hteardown hcall =>
    exact ⟨hpending, hawait, hstack, hact, hteardown, hcall⟩
  | aside nested hact =>
    rw [hact, List.length_append, List.length_cons] at hends
    omega
  | calls _ hact | goesOn _ _ _ _ hact =>
    rw [hact, List.length_cons] at hends
    omega

/-! ## How far a shutdown has come -/

/-- The shutdown of the process that the thread `t` has called, above the dispatches `base`, is
tearing down the instance that `d` is for. Of the instances `ids` that it found, this one and those
created before it are live, and those created after it are dead. -/
structure TearsDown (m : Machine) (base : List Dispatch) (t : ThreadId) (tok : Token)
    (ids : List InstanceId) (d : Dispatch) : Prop where
  stack : ∃ nested, m.dispatches = nested ++ d :: base
  thread : d.thread = t
  process : d.process = tok
  event : d.event = .destroyed
  target : d.target ∈ ids
  alive : ∀ id ∈ ids, m.session.world.isLive id = decide (id.number ≤ d.target.number)

/-- How far the shutdown has come: the instances `torn` are torn down, and their hooks were called;
it is at the instance of `d`, and some of that one's hooks were called. -/
structure Underway (base : List Dispatch) (t : ThreadId) (tok : Token) (ids : List InstanceId)
    (past : List Machine) (m : Machine) (nested : List Dispatch) (d : Dispatch)
    (torn : List InstanceId) : Prop where
  stack : m.dispatches = nested ++ d :: base
  thread : d.thread = t
  process : d.process = tok
  task : d.task = .shutdown d.awaiting ids.length
  order : ids = torn ++ d.target :: d.awaiting
  dead : ∀ id ∈ torn, m.session.world.isLive id = false
  drawn : ∀ id ∈ ids, id.number < m.session.world.nextInstance
  begun : (teardowns base.length tok past).map (·.1) = torn ++ [d.target]
  called : hookCalls base.length past ++ d.pending.map (d.target, ·) =
    (teardowns base.length tok past).flatMap fun r => r.2.map (r.1, ·)

/-- A shutdown dispatches destructions. -/
theorem event_of_shutdown {rest : List InstanceId} {count : Nat} (htask : d.task = .shutdown rest count) :
    d.event = .destroyed := by
  unfold Dispatch.event
  rw [htask]

/-- A shutdown under way has its dispatch on the stack, above those that were there before. -/
theorem Underway.tearsDown (h : Underway base t tok ids past m nested d torn) (hs : m.Sound)
    (hdesc : ids.Pairwise fun a b => b.number < a.number) : m.TearsDown base t tok ids d := by
  have hmem : d.target ∈ ids := by
    rw [h.order]
    exact List.mem_append_right _ List.mem_cons_self
  refine ⟨⟨nested, h.stack⟩, h.thread, h.process, event_of_shutdown h.task, hmem, fun id hid => ?_⟩
  -- those still to be torn down are out of the registry and alive
  have hcondemned : ∀ id ∈ d.target :: d.awaiting, m.session.world.isLive id = true := by
    intro id hid
    refine hs.registry.outLive id ?_
    rw [condemned_eq, h.stack]
    refine List.mem_flatMap.2 ⟨d, List.mem_append_right _ List.mem_cons_self, ?_⟩
    unfold Dispatch.condemned
    rw [h.task]
    exact hid
  rw [h.order] at hid hdesc
  obtain ⟨-, hrest, hacross⟩ := List.pairwise_append.1 hdesc
  -- instances go down in descending order, so those done with have the larger numbers
  rcases List.mem_append.1 hid with htorn | hleft
  · have hlater := hacross id htorn d.target List.mem_cons_self
    rw [h.dead id htorn, eq_comm, decide_eq_false_iff_not]
    omega
  · rw [hcondemned id hleft, eq_comm, decide_eq_true_eq]
    rcases List.mem_cons.1 hleft with rfl | hwaits
    · exact Nat.le_refl _
    · exact Nat.le_of_lt ((List.pairwise_cons.1 hrest).1 id hwaits)

/-- A step of a shutdown that does not end it takes it further. -/
theorem underway_step (h : Underway base t tok ids past m nested d torn) (hs : m.Sound)
    (hok : m.orderly = true) (hturn : m.ShutdownTurn tok base d)
    (hstays : base.length < m.step.dispatches.length) :
    ∃ nested' d' torn', Underway base t tok ids (m :: past) m.step nested' d' torn' := by
  obtain ⟨hs', hgrows⟩ := sound_step hs hok
  have hdrawn : ∀ id ∈ ids, id.number < m.step.session.world.nextInstance :=
    fun id hid => Nat.lt_of_lt_of_le (h.drawn id hid) hgrows.nextInstance
  have hdead : ∀ id ∈ torn, m.step.session.world.isLive id = false := by
    intro id hid
    refine hgrows.not_live (h.drawn id ?_) (h.dead id hid)
    rw [h.order]
    exact List.mem_append_left _ hid
  -- the step is one above the dispatch, calls its next hook, goes on to the next instance, or ends
  -- it
  cases hturn with
  | aside nested' hact hteardown hcall =>
    refine ⟨nested', d, torn, hact, h.thread, h.process, h.task, h.order, hdead, hdrawn, ?_, ?_⟩
    · rw [teardowns_cons, hteardown, Option.toList_none, List.append_nil]
      exact h.begun
    · rw [teardowns_cons, hteardown, hookCalls_cons, hcall, Option.toList_none, Option.toList_none,
        List.append_nil, List.append_nil]
      exact h.called
  | @calls c rest hpending hact hteardown hcall =>
    refine ⟨[], { d with pending := rest }, torn, hact, h.thread, h.process, h.task, h.order, hdead,
      hdrawn, ?_, ?_⟩
    · rw [teardowns_cons, hteardown, Option.toList_none, List.append_nil]
      exact h.begun
    · rw [teardowns_cons, hteardown, hookCalls_cons, hcall, Option.toList_none, Option.toList_some,
        List.append_nil, ← h.called, hpending, List.append_assoc]
      rfl
  | @goesOn id rest d' count hmarks hpending htask hd' hact hteardown hcall =>
    have hcount := htask.symm.trans h.task
    obtain ⟨hawait, rfl⟩ := Task.shutdown.inj hcount
    have horder := h.order
    rw [← hawait] at horder
    subst hd'
    refine ⟨[], _, torn ++ [d.target], hact, h.thread, h.process, rfl, ?_, ?_, hdrawn, ?_, ?_⟩
    · rw [horder, List.append_assoc]
      rfl
    · -- the instance that the shutdown was at is marked by this step
      intro id' hid'
      rcases List.mem_append.1 hid' with htorn | hlast
      · exact hdead id' htorn
      · rw [List.mem_singleton.1 hlast]
        exact (dead_of_marks hs hmarks).2
    · rw [teardowns_cons, hteardown, List.map_append, h.begun]
      rfl
    · have hcalled := h.called
      rw [hpending, List.map_nil, List.append_nil] at hcalled
      rw [teardowns_cons, hteardown, hookCalls_cons, hcall, Option.toList_none, List.append_nil,
        List.flatMap_append, hcalled]
      exact congrArg (_ ++ ·) (List.append_nil _).symm
  | ends _ _ _ hact =>
    rw [dispatches_step, hact] at hstays
    exact absurd hstays (Nat.lt_irrefl _)

/-- What an orderly step does to a shutdown under way. -/
theorem shutdownTurn_of_underway (h : Underway base t tok ids past m nested d torn)
    (hm : Reachable orderly m) (hok : m.orderly = true) : m.ShutdownTurn tok base d := by
  have hturn := dispatchTurn_of_reachable hm hok
  have hstack := h.stack
  cases nested with
  | nil =>
    exact shutdownTurn_of_top hturn (eased_of_reachable hm) hstack h.process (event_of_shutdown h.task)
  | cons d₁ nested => exact shutdownTurn_of_nested hturn hstack

/-! ## From the call to the return -/

/-- A deeper step is orderly. -/
theorem orderly_of_deeper (h : m.deeper k = true) : m.orderly = true := (Bool.and_eq_true_iff.1 h).1

/-- At a deeper step more dispatches are under way. -/
theorem lt_of_deeper (h : m.deeper k = true) : k < m.dispatches.length :=
  of_decide_eq_true (Bool.and_eq_true_iff.1 h).2

/-- Up to its return a shutdown is under way, and at each step it is tearing down an instance. -/
theorem underway_of_trace (hm₁ : Reachable orderly m₁)
    (hdesc : ids.Pairwise fun a b => b.number < a.number)
    (h : Underway base t tok ids past m₁ [] d []) {since : List Machine}
    (htrace : Trace (deeper base.length) m₁ since m) (hstays : base.length < m.dispatches.length) :
    (∃ nested d torn, Underway base t tok ids (since ++ past) m nested d torn) ∧
      ∀ m' ∈ since, ∃ d, m'.TearsDown base t tok ids d := by
  induction htrace with
  | start => exact ⟨⟨[], d, [], h⟩, fun m' hm' => (by cases hm')⟩
  | @step since m htrace hallowed ih =>
    -- a step that is allowed begins above the base, so the shutdown was under way before it
    obtain ⟨⟨nested, d', torn, hunder⟩, hsofar⟩ := ih (lt_of_deeper hallowed)
    have hok := orderly_of_deeper hallowed
    have hm : Reachable orderly m := hm₁.run (htrace.run.mono fun _ => orderly_of_deeper)
    have hs := sound_of_reachable hm
    refine ⟨underway_step hunder hs hok (shutdownTurn_of_underway hunder hm hok) hstays, ?_⟩
    intro m' hm'
    rcases List.mem_cons.1 hm' with rfl | hm'
    · exact ⟨d', hunder.tearsDown hs hdesc⟩
    · exact hsofar m' hm'
  | redirect htrace steps ih =>
    rw [dispatches_redirect] at hstays
    obtain ⟨⟨nested, d', torn, hunder⟩, hsofar⟩ := ih hstays
    refine ⟨⟨nested, d', torn, ?_⟩, hsofar⟩
    refine ⟨?_, hunder.thread, hunder.process, hunder.task, hunder.order, ?_, ?_, hunder.begun,
      hunder.called⟩
    · rw [dispatches_redirect]
      exact hunder.stack
    · rw [world_redirect]
      exact hunder.dead
    · rw [world_redirect]
      exact hunder.drawn

/-- An operation that returns and takes a dispatch off the stack has had its hooks run. -/
theorem finishing_of_returned {o : Outcome} (hreturned : m.returned? = some o)
    (hless : m.act.dispatches.length < m.dispatches.length) : ∃ d, m.finishing? = some d := by
  cases hfin : m.finishing? with
  | some d => exact ⟨d, rfl⟩
  | none =>
    unfold returned? at hreturned
    rw [hfin] at hreturned
    dsimp only at hreturned
    split at hreturned
    · next ctx name c hcall =>
      rw [dispatches_of_nextCall? hcall nofun, List.length_append] at hless
      omega
    · cases hreturned

/-- The last step of a shutdown. -/
theorem end_of_shutdown {count : Nat} (heased : m.Eased) (hfin : m.finishing? = some d)
    (htask : d.task = .shutdown [] count) :
    m.returned? = some (.ok (.number count)) ∧ m.Marks d.thread d.process d.target ∧
      m.act.session.world.bindingState d.thread d.process = .unbound := by
  obtain ⟨job, below, hstack, hact⟩ := act_of_finishing? hfin
  obtain ⟨⟨hfailure, -⟩, -⟩ := able_of_eased heased hstack
  have hfinish : m.session.finish d = .done (.ok (.number count)) (m.session.withWorld
      ((m.session.world.tearDown d.thread d.process d.target).releaseKey d.thread d.process)) := by
    unfold finish
    rw [htask]
    dsimp only [continueShutdown]
    rw [hfailure]
    rfl
  refine ⟨?_, ⟨d, hfin, fun as? => htask ▸ nofun, rfl, rfl, rfl⟩, ?_⟩
  · unfold returned?
    rw [hfin]
    dsimp only
    rw [hfinish]
    rfl
  · have hworld : m.act.session.world =
        (m.session.world.tearDown d.thread d.process d.target).releaseKey d.thread d.process := by
      rw [hact, hfinish]
      exact congrArg View.world (view_done _ job _ _)
    rw [hworld, bindingState_releaseKey, if_pos ⟨rfl, rfl⟩]

/-- What a shutdown has done by the time at which it returns, by the last step of `m`. -/
structure Ended (base : List Dispatch) (t : ThreadId) (tok : Token) (ids : List InstanceId)
    (past : List Machine) (m : Machine) : Prop where
  order : (teardowns base.length tok (m :: past)).map (·.1) = ids
  hooks : hookCalls base.length (m :: past) =
    (teardowns base.length tok (m :: past)).flatMap fun r => r.2.map (r.1, ·)
  dead : ∀ id ∈ ids, m.step.session.world.isLive id = false
  unbound : m.step.session.world.bindingState t tok = .unbound

/-- A shutdown that takes its dispatch off the stack and returns has come to its end. -/
theorem Underway.ended (h : Underway base t tok ids past m nested d torn) (hs : m.Sound)
    (hok : m.orderly = true) (heased : m.Eased) (hturn : m.ShutdownTurn tok base d)
    (hends : m.step.dispatches.length ≤ base.length) {o : Outcome} (hreturned : m.returned? = some o) :
    o = .ok (.number ids.length) ∧ Ended base t tok ids past m := by
  obtain ⟨hpending, hawait, hstack, hact, hteardown, hcall⟩ := hturn.ends_of_le hends
  have hless : m.act.dispatches.length < m.dispatches.length := by
    rw [hact, hstack]
    exact Nat.lt_succ_self _
  obtain ⟨d', hfin⟩ := finishing_of_returned hreturned hless
  obtain ⟨job, below, hframes, -⟩ := act_of_finishing? hfin
  -- the dispatch that returns is the one on top of the base
  obtain ⟨rfl, -⟩ := List.cons.inj ((dispatches_of_dispatch hframes).symm.trans hstack)
  have htask := h.task
  have horder := h.order
  rw [hawait] at htask horder
  obtain ⟨hanswer, hmarks, hunbound⟩ := end_of_shutdown heased hfin htask
  rw [h.thread, h.process] at hunbound
  refine ⟨Option.some.inj (hreturned.symm.trans hanswer), ?_, ?_, ?_, ?_⟩
  · rw [teardowns_cons, hteardown, Option.toList_none, List.append_nil, h.begun, ← horder]
  · have hcalled := h.called
    rw [hpending, List.map_nil, List.append_nil] at hcalled
    rw [teardowns_cons, hteardown, hookCalls_cons, hcall, Option.toList_none, Option.toList_none,
      List.append_nil, List.append_nil, hcalled]
  · -- all but the last were dead, and the last is marked by this step
    intro id hid
    have hgrows := (sound_step hs hok).2
    rw [horder] at hid
    rcases List.mem_append.1 hid with htorn | hlast
    · refine hgrows.not_live (h.drawn id ?_) (h.dead id htorn)
      rw [horder]
      exact List.mem_append_left _ htorn
    · rw [List.mem_singleton.1 hlast]
      exact (dead_of_marks hs hmarks).2
  · exact (unbinds_sweep m tok).unbound hunbound

/-! ## After the return -/

/-- How a process is left by the shutdown that the thread `t` has called at the machine `m₀`, and that
has torn down the instances `ids`: no instance is registered, those that were are dead, and the thread
is unbound. Threads that were bound to one of them have a stale binding or none, and handles to
bindings under the process are made no more. -/
structure Left (m₀ m : Machine) (t : ThreadId) (tok : Token) (ids : List InstanceId) : Prop where
  empty : ∀ id, m.session.world.registers tok id = false
  dead : ∀ id ∈ ids, m.session.world.isLive id = false
  unbound : m.session.world.bindingState t tok = .unbound
  others : ∀ t', ∀ id ∈ ids, m₀.session.world.bindingState t' tok = .bound id →
    m.session.world.bindingState t' tok = .stale id ∨
      m.session.world.bindingState t' tok = .unbound
  unobtainable : ∀ t' h, ¬ m.Obtains tok h t'

/-- A handle to a binding under the process is refused, unless the thread is another one and its
instance is being torn down by an operation that was under way when the shutdown was called. -/
def Spent (m₀ m : Machine) (t t' : ThreadId) (h : Handle) : Prop :=
  (∃ e, m.session.world.borrow t' h = .error e) ∨
    t' ≠ t ∧ h.target ∈ m₀.condemned ∧ h.target ∈ m.condemned

/-- What the machine `m₀` with the call of a shutdown, the machines `past` and the machine `m` with its
return, and what comes after it have to do with each other. -/
structure Complete (m₀ : Machine) (past : List Machine) (m : Machine) (t : ThreadId) (tok : Token)
    (ids : List InstanceId) : Prop where
  /-- The instances are torn down one after the other, from the newest to the oldest. -/
  descending : ids.Pairwise fun a b => b.number < a.number
  order : (teardowns m₀.dispatches.length tok (m :: past)).map (·.1) = ids
  /-- The hooks that are called are those that the process has for each of them in turn. -/
  hooks : hookCalls m₀.dispatches.length (m :: past) =
    (teardowns m₀.dispatches.length tok (m :: past)).flatMap fun r => r.2.map (r.1, ·)
  /-- Meanwhile an instance is live until it was its turn. -/
  during : ∀ m' ∈ m :: past, m₀.dispatches.length < m'.dispatches.length →
    ∃ d, m'.TearsDown m₀.dispatches t tok ids d
  after : ∀ m', Run orderly m.step m' → m₀.Left m' t tok ids
  /-- A handle that was made before is of no use any more. -/
  handles : ∀ m₁ h t', Reachable settled m₁ → m₁.Obtains tok h t' → Run (lasting t') m₁.step m.step →
    ∀ m', Run (fun m => m.orderly && m.lasting t') m.step m' → m₀.Spent m' t t' h

/-- What a shutdown leaves is left so in every orderly run that follows. -/
theorem left_of_run (hs₀ : m₀.Sound) (hok₀ : m₀.orderly = true) (hdrains : m₀.Drains tok ids)
    (hids : ∀ id ∈ ids, id.number < m₀.session.world.nextInstance)
    (hdead : ∀ id ∈ ids, m.session.world.isLive id = false)
    (hunbound : m.session.world.bindingState t tok = .unbound)
    (hrun₀ : Run orderly m₀.step m) (hrun : Run orderly m m') : m₀.Left m' t tok ids := by
  obtain ⟨hs₁, hgrows₁⟩ := sound_step hs₀ hok₀
  obtain ⟨hs, hgrows⟩ := sound_of_run hs₁ hrun₀
  obtain ⟨-, hgrows'⟩ := sound_of_run hs hrun
  have hclosed₁ : m₀.step.session.world.Closed tok :=
    hdrains.closed.courses (.of_rests (rests_sweep m₀))
  obtain ⟨hclosed, hunbinds⟩ := closed_of_run hclosed₁ hrun₀
  obtain ⟨hclosed', hunbinds'⟩ := closed_of_run hclosed hrun
  have hdead' : ∀ id ∈ ids, m'.session.world.isLive id = false := fun id hid =>
    hgrows'.not_live
      (Nat.lt_of_lt_of_le (hids id hid) (hgrows₁.trans hgrows).nextInstance) (hdead id hid)
  refine ⟨hclosed'.not_registers, hdead', hunbinds'.unbound hunbound, ?_,
    fun t' h => not_obtains_of_closed hclosed' t' h⟩
  intro t' id hid hbound
  cases hb : (m'.session.world.thread t').binding? tok with
  | none => exact .inr (bindingState_none hb)
  | some b =>
    -- what the thread is bound to it was bound to when the shutdown was called
    have hb₀ := hdrains.unbinds t' b (unbinds_sweep m₀ tok t' b (hunbinds t' b (hunbinds' t' b hb)))
    have htarget : b.target = id := by
      rw [bindingState_some hb₀] at hbound
      split at hbound
      · exact BindingState.bound.inj hbound
      · cases hbound
    left
    rw [bindingState_some hb, htarget, hdead' id hid]
    rfl

/-- A handle that still gives access is one of another thread, to an instance that was condemned
before. -/
theorem spent_of_run (hs₀ : m₀.Sound) (hok₀ : m₀.orderly = true) (hdrains : m₀.Drains tok ids)
    (hrun₀ : Run orderly m₀.step m') (hleft : m₀.Left m' t tok ids) {h : Handle} {t' : ThreadId}
    (hm' : Reachable settled m') (hpast : (m'.session.world.thread t').Past tok h) :
    m₀.Spent m' t t' h := by
  have hact := (sound_act hs₀ hok₀).1
  have hs₁ := (sound_step hs₀ hok₀).1
  have hclosed₁ : m₀.step.session.world.Closed tok :=
    hdrains.closed.courses (.of_rests (rests_sweep m₀))
  cases hborrow : m'.session.world.borrow t' h with
  | error e => exact .inl ⟨e, hborrow⟩
  | ok w =>
    obtain ⟨hb, hlive, -⟩ := (borrow_iff (threadsSound_of_reachable hm') (exact_of_reachable hm')
      hpast).1 ⟨w, hborrow⟩
    -- it is bound and live, so it was so when the shutdown had taken the registry
    have hb₀ := unbinds_sweep m₀ tok t' h ((closed_of_run hclosed₁ hrun₀).2 t' h hb)
    have hgrows := (sound_sweep hact m₀.actor).2.grows.trans (sound_of_run hs₁ hrun₀).2
    have hlive₀ : m₀.act.session.world.isLive h.target = true := by
      by_contra hdead
      have hdead' := hgrows.not_live (hact.bindings.bound t' tok h hb₀).1 (Bool.eq_false_iff.2 hdead)
      rw [hlive] at hdead'
      cases hdead'
    have hcondemned := condemned_of_bound hact hdrains.closed hdrains.there hb₀ hlive₀
    rw [hdrains.condemned] at hcondemned
    rcases List.mem_append.1 hcondemned with htorn | hbefore
    · rw [hleft.dead _ htorn] at hlive
      cases hlive
    · have hrun : Run orderly m₀ m' := (Run.refl.step hok₀).trans hrun₀
      refine .inr ⟨?_, hbefore, condemned_of_run hs₀ hrun hbefore hlive⟩
      rintro rfl
      have hunbound := hleft.unbound
      rw [bindingState_some hb] at hunbound
      split at hunbound <;> cases hunbound

/-- What is to be known of a shutdown when it has returned. -/
theorem complete_of_ended (hm₀ : Reachable orderly m₀) (hok₀ : m₀.orderly = true)
    (hdrains : m₀.Drains tok ids) (hdesc : ids.Pairwise fun a b => b.number < a.number)
    (hids : ∀ id ∈ ids, id.number < m₀.session.world.nextInstance)
    (hrun₀ : Run orderly m₀.step m.step) (hended : Ended m₀.dispatches t tok ids past m)
    (hduring : ∀ m' ∈ m :: past, m₀.dispatches.length < m'.dispatches.length →
      ∃ d, m'.TearsDown m₀.dispatches t tok ids d) : Complete m₀ past m t tok ids := by
  have hs₀ := sound_of_reachable hm₀
  have hleft : ∀ m', Run orderly m.step m' → m₀.Left m' t tok ids := fun m' hrun =>
    left_of_run hs₀ hok₀ hdrains hids hended.dead hended.unbound hrun₀ hrun
  refine ⟨hdesc, hended.order, hended.hooks, hduring, hleft, ?_⟩
  intro m₁ h t' hm₁ hobtains hrun m' hlater
  have horderly : Run orderly m.step m' := hlater.mono fun _ hok => (Bool.and_eq_true_iff.1 hok).1
  have hlasting : Run (lasting t') m.step m' := hlater.mono fun _ hok => (Bool.and_eq_true_iff.1 hok).2
  have hsettled : m₁.settled = true := settled_of_lasting (lasting_of_obtains hobtains)
  have hm₂ : Reachable settled m₁.step := hm₁.run (Run.refl.step hsettled)
  have hall : Run (lasting t') m₁.step m' := hrun.trans hlasting
  have hs₂ := threadsSound_of_reachable hm₂
  have hpast := (Thread.past_of_binding (hs₂ t')
    (lasts_of_obtains (kept_of_reachable hm₁) hobtains)).advances (advances_of_run hs₂ hall)
  exact spent_of_run hs₀ hok₀ hdrains (hrun₀.trans horderly) (hleft m' horderly)
    (hm₂.run (hall.mono fun _ => settled_of_lasting)) hpast

/-- There was nothing to tear down. -/
theorem complete_of_atOnce (hm₀ : Reachable orderly m₀) (hok₀ : m₀.orderly = true)
    (hdrains : m₀.Drains tok []) (hbegun : m₀.begun? = none) (hcalled : m₀.called? = none)
    (hunbound : m₀.act.session.world.bindingState t tok = .unbound) :
    Complete m₀ [] m₀ t tok [] := by
  have hnone : teardowns m₀.dispatches.length tok [m₀] = [] := by
    rw [teardowns_cons, teardown?_of_none hbegun]
    rfl
  refine complete_of_ended hm₀ hok₀ hdrains .nil nofun .refl ⟨?_, ?_, nofun, ?_⟩ ?_
  · rw [hnone]
    rfl
  · rw [hnone, hookCalls_cons, hookCall?_of_none hcalled]
    rfl
  · exact (unbinds_sweep m₀ tok).unbound hunbound
  · intro m' hm' hlt
    rw [List.mem_singleton.1 hm'] at hlt
    exact absurd hlt (Nat.lt_irrefl _)

/-- A shutdown is under way when its first dispatch has begun. -/
theorem underway_of_begins {rest : List InstanceId} (hm₀ : m₀.Sound) (hok₀ : m₀.orderly = true)
    (hids : ∀ id' ∈ id :: rest, id'.number < m₀.session.world.nextInstance)
    (hbegun : m₀.begun? = some d) (hcalled : m₀.called? = none)
    (hact : m₀.act.dispatches = d :: m₀.dispatches)
    (hd : d = ⟨t, tok, id, m₀.session.world.listed tok .destroyed,
      .shutdown rest (rest.length + 1), none⟩) :
    Underway m₀.dispatches t tok (id :: rest) [m₀] m₀.step [] d [] := by
  have hteardown : m₀.teardown? m₀.dispatches.length tok =
      some (id, m₀.session.world.listed tok .destroyed) := by
    unfold teardown?
    rw [hact, if_pos List.length_cons, hbegun, hd]
    rfl
  have hgrows := (sound_step hm₀ hok₀).2
  subst hd
  refine ⟨hact, rfl, rfl, rfl, rfl, nofun,
    fun id' hid' => Nat.lt_of_lt_of_le (hids id' hid') hgrows.nextInstance, ?_, ?_⟩
  · rw [teardowns_cons, hteardown]
    rfl
  · rw [teardowns_cons, hteardown, hookCalls_cons, hookCall?_of_none hcalled]
    exact (List.append_nil _).symm

/-- A run that stays above some dispatches has begun above them. -/
theorem lt_of_trace (htrace : Trace (deeper k) m₁ past m) (hdeep : k < m.dispatches.length) :
    k < m₁.dispatches.length := by
  induction htrace with
  | start => exact hdeep
  | step _ hallowed ih => exact ih (lt_of_deeper hallowed)
  | redirect _ steps ih =>
    rw [dispatches_redirect] at hdeep
    exact ih hdeep

/-- Hooks have run, and the shutdown is at its last instance when it returns. -/
theorem complete_of_later (hm₀ : Reachable orderly m₀) (hok₀ : m₀.orderly = true)
    (hdrains : m₀.Drains tok ids) (hdesc : ids.Pairwise fun a b => b.number < a.number)
    (hids : ∀ id ∈ ids, id.number < m₀.session.world.nextInstance)
    (h : Underway m₀.dispatches t tok ids [m₀] m₀.step [] d [])
    (htrace : Trace (deeper m₀.dispatches.length) m₀.step past m)
    (hlast : m.deeper m₀.dispatches.length = true)
    (hends : m.step.dispatches.length ≤ m₀.dispatches.length) {o : Outcome}
    (hreturned : m.returned? = some o) :
    o = .ok (.number ids.length) ∧ Complete m₀ (past ++ [m₀]) m t tok ids := by
  have hm₁ : Reachable orderly m₀.step := hm₀.run (Run.refl.step hok₀)
  have hrun : Run orderly m₀.step m := htrace.run.mono fun _ => orderly_of_deeper
  have hok := orderly_of_deeper hlast
  have hm := hm₁.run hrun
  have hs := sound_of_reachable hm
  obtain ⟨⟨nested, d', torn, hunder⟩, hsofar⟩ :=
    underway_of_trace hm₁ hdesc h htrace (lt_of_deeper hlast)
  obtain ⟨hanswer, hended⟩ := hunder.ended hs hok (eased_of_reachable hm)
    (shutdownTurn_of_underway hunder hm hok) hends hreturned
  refine ⟨hanswer, complete_of_ended hm₀ hok₀ hdrains hdesc hids (hrun.step hok) hended ?_⟩
  intro m' hm' hlt
  rcases List.mem_cons.1 hm' with rfl | hm'
  · exact ⟨d', hunder.tearsDown hs hdesc⟩
  · rcases List.mem_append.1 hm' with hm' | hm'
    · exact hsofar m' hm'
    · rw [List.mem_singleton.1 hm'] at hlt
      exact absurd hlt (Nat.lt_irrefl _)

/-- A shutdown that is called at any point of any run of orderly steps, from any thread and from inside
any closures and hooks, and that returns no error, returns the number of the instances that were
registered when it was called, and is complete. -/
theorem shutdown_complete (hm₀ : Reachable orderly m₀)
    (hcall : m₀.nextCall? = some (ctx, .process name .shutdown))
    (hproc : m₀.session.process name = .ok tok)
    (hp : m₀.session.world.processes.get? tok = some p) (hreturns : Returns m₀ past m) {a : Answer}
    (hreturned : m.returned? = some (.ok a)) :
    a = .number p.registry.members.length ∧
      Complete m₀ past m ctx.thread tok p.registry.members.reverse := by
  have hs₀ := sound_of_reachable hm₀
  have hok₀ : m₀.orderly = true := orderly_of_nextCall? hcall rfl nofun
  have hdesc : p.registry.members.reverse.Pairwise fun a b => b.number < a.number :=
    List.pairwise_reverse.2 (hs₀.registry.ascending tok p hp)
  have hids : ∀ id ∈ p.registry.members.reverse, id.number < m₀.session.world.nextInstance :=
    fun id hid => hs₀.registry.drawn_of_live
      (hs₀.registry.live_of_member hp (List.mem_reverse.1 hid))
  have hdrained := drained_of_call hs₀ hcall hproc hp
  rw [← List.length_reverse]
  generalize p.registry.members.reverse = ids at hdesc hids hdrained
  -- the call is refused, or finds no instance, or begins with the first one
  cases hdrained with
  | refused hrefused hact =>
    exfalso
    cases hreturns with
    | atOnce hends =>
      rw [hreturned] at hrefused
      cases hrefused
    | later htrace hlast hends =>
      have hdeep := lt_of_trace htrace (lt_of_deeper hlast)
      rw [dispatches_step, hact] at hdeep
      exact Nat.lt_irrefl _ hdeep
  | done hdrains hzero hbegun hcalled hact hunbound =>
    cases hreturns with
    | atOnce hends =>
      rw [hreturned] at hzero
      exact ⟨Except.ok.inj (Option.some.inj hzero),
        complete_of_atOnce hm₀ hok₀ hdrains hbegun hcalled hunbound⟩
    | later htrace hlast hends =>
      have hdeep := lt_of_trace htrace (lt_of_deeper hlast)
      rw [dispatches_step, hact] at hdeep
      exact absurd hdeep (Nat.lt_irrefl _)
  | begins hdrains hbegun hcalled hact hd =>
    cases hreturns with
    | atOnce hends =>
      rw [dispatches_step, hact, List.length_cons] at hends
      omega
    | later htrace hlast hends =>
      have hunder := underway_of_begins hs₀ hok₀ hids hbegun hcalled hact hd
      obtain ⟨ha, hcomplete⟩ :=
        complete_of_later hm₀ hok₀ hdrains hdesc hids hunder htrace hlast hends hreturned
      exact ⟨Except.ok.inj ha, hcomplete⟩

/-- A program with two instances, which shuts down inside a closure on its own binding. -/
def shutFromWithin : Machine :=
  start default default 0 [
    .call none (.start "p" none),
    .call none (.process "p" (.create (some "i"))),
    .call none (.process "p" (.create (some "j"))),
    .call (some "a") (.process "p" (.bind "j" (some "h"))),
    .register none ⟨some "p", .destroyed, none, "d", 0⟩ [],
    .call none (.process "p" (.bind "i" none)),
    .closure none (.ofThread "p") [.call none (.process "p" .shutdown)]]

/-- The younger instance is torn down before the older one. -/
theorem shut_from_within :
    Complete (shutFromWithin.run 9) (trail 3 (shutFromWithin.run 9).step [] ++ [shutFromWithin.run 9])
      ((shutFromWithin.run 9).step.run 3) .main ⟨1⟩ [⟨2⟩, ⟨1⟩] := by
  have hm₀ : Reachable orderly (shutFromWithin.run 9) := .of_run (by decide +kernel)
  have htrace : Trace (deeper (shutFromWithin.run 9).dispatches.length) (shutFromWithin.run 9).step
      (trail 3 (shutFromWithin.run 9).step []) ((shutFromWithin.run 9).step.run 3) :=
    .of_run .start (by decide +kernel)
  have hreturns : Returns (shutFromWithin.run 9)
      (trail 3 (shutFromWithin.run 9).step [] ++ [shutFromWithin.run 9])
      ((shutFromWithin.run 9).step.run 3) := .later htrace (by decide +kernel) (by decide +kernel)
  have hmembers : ((shutFromWithin.run 9).session.world.processes.get? ⟨1⟩).map
      (·.registry.members.reverse) = some [⟨2⟩, ⟨1⟩] := by decide +kernel
  obtain ⟨p, hp, hids⟩ := Option.map_eq_some_iff.1 hmembers
  have hcall : (shutFromWithin.run 9).nextCall? =
      some (⟨.main, .threadVars .main ⟨0⟩, none⟩, .process "p" .shutdown) := by decide +kernel
  have hreturned : ((shutFromWithin.run 9).step.run 3).returned? = some (.ok (.number 2)) := by rfl
  obtain ⟨-, hcomplete⟩ := shutdown_complete hm₀ hcall (by rfl) hp hreturns hreturned
  rwa [hids] at hcomplete

/-- A program with a hook that shuts down while an instance is destroyed to which a worker is bound. -/
def shutInDestruction : Machine :=
  start default default 0 [
    .call none (.start "p" none),
    .call none (.process "p" (.create (some "i"))),
    .call (some "a") (.process "p" (.bind "i" (some "h"))),
    .register none ⟨some "p", .destroyed, none, "d", 1⟩ [
      .call none (.process "p" .shutdown),
      .closure (some "a") (.ofHandle "h") []],
    .call none (.process "p" (.destroy "i"))]

/-- It is not so that no handle gives access when a shutdown has returned: the worker's does. -/
theorem access_after_shutdown :
    ¬ ∀ (m₀ : Machine) (past : List Machine) (m : Machine) (ctx : Context) (name : Name) (tok : Token)
        (a : Answer) (m₁ : Machine) (h : Handle) (t : ThreadId),
      Reachable orderly m₀ → m₀.nextCall? = some (ctx, .process name .shutdown) →
      m₀.session.process name = .ok tok → Returns m₀ past m → m.returned? = some (.ok a) →
      Reachable settled m₁ → m₁.Obtains tok h t → Run (lasting t) m₁.step m.step →
      ∃ e, m.step.session.world.borrow t h = .error e := by
  intro hall
  have hm₀ : Reachable orderly (shutInDestruction.run 7) := .of_run (by decide +kernel)
  have hm₁ : Reachable settled (shutInDestruction.run 3) := .of_run (by decide +kernel)
  have hbind : (shutInDestruction.run 3).nextCall? =
      some ({ thread := .worker "a" }, .process "p" (.bind "i" (some "h"))) := by decide +kernel
  have hbinds : (shutInDestruction.run 3).BindsTo ⟨1⟩ ⟨1⟩ ⟨⟨1⟩, ⟨0⟩⟩ (.worker "a") :=
    .intro hbind (by rfl) (by rfl) (by rfl)
  have hrun : Run (lasting (.worker "a")) (shutInDestruction.run 3).step (shutInDestruction.run 7).step :=
    .of_run (n := 4) (by decide +kernel)
  have hcall : (shutInDestruction.run 7).nextCall? =
      some (⟨.main, .nothing, some ⟨1⟩⟩, .process "p" .shutdown) := by decide +kernel
  have hreturned : (shutInDestruction.run 7).returned? = some (.ok (.number 0)) := by rfl
  obtain ⟨e, he⟩ := hall _ _ _ _ _ ⟨1⟩ _ _ _ _ hm₀ hcall (by rfl) (.atOnce (by decide +kernel))
    hreturned hm₁ (.bind hbinds) hrun
  have hopens : ((shutInDestruction.run 7).step.session.world.borrow (.worker "a")
      ⟨⟨1⟩, ⟨0⟩⟩).toBool = true := by decide +kernel
  rw [he] at hopens
  cases hopens

end TieredState.Machine
