import TieredState.Proofs.Locks

/-!
# Calls on several threads at once

A session takes its calls one after the other. Here any number of calls to create, spawn, destroy and
shut down are under way on any threads, and each of them goes on by one step at a time: it checks that
the process is live, draws an identity, does what it has to do under the registry's lock, lists hooks,
marks an instance dead. Between two steps of one call the others take theirs. While a call has its
hooks called it makes no step, and what they do is calls of their own.

* `Ongoing.next` — the next step of a call, made of the operations on worlds.
* `alone_create`, `alone_spawn`, `alone_destroy`, `alone_shutdown` — a call that nothing comes between
  does what the same call does in a session.
* `Transition`, `Reachable` — calls begin and go on, processes start, and the threads do other things.
* `Turn` — all that a step of a call can do.
-/

namespace TieredState

namespace World

variable {w w' : World} {t : ThreadId} {tok : Token} {id : InstanceId}

/-! ## Under the registry's lock -/

/-- Register an instance under an identity that was drawn before, if the process is live still and has
room for it. -/
def accept (w : World) (t : ThreadId) (tok : Token) (parent? : Option InstanceId) (id : InstanceId) :
    Except AccessError World := do
  w.mayTake t .registry
  let p ← w.live tok
  if 0 < p.maxInstances ∧ p.maxInstances ≤ p.registry.size then
    .error (.instanceLimit p.maxInstances)
  else return w.registered tok parent? id

/-- Take an instance out of the registry, whatever became of the process since it was looked at. -/
def unregister (w : World) (t : ThreadId) (tok : Token) (id : InstanceId) :
    Except AccessError World := do
  w.mayTake t .registry
  if w.registers tok id then return w.modifyProcess tok (withdrawn id)
  else .error (.instanceDestroyed id)

/-- To register an instance takes several looks at the process, and then one step with the registry.
-/
theorem enroll_eq (w : World) (t : ThreadId) (tok : Token) (parent? : Option InstanceId) :
    w.enroll t tok parent? =
      match w.live tok with
      | .error e => (.error e, w)
      | .ok _ =>
        match w.draw.accept t tok parent? ⟨w.nextInstance⟩ with
        | .error e => (.error e, w.draw)
        | .ok w' => (.ok ⟨w.nextInstance⟩, w') := by
  have hlive : w.draw.live tok = w.live tok := rfl
  have hmay : w.draw.mayTake t .registry = w.mayTake t .registry := rfl
  unfold enroll accept
  rw [← draw, hlive, hmay]
  cases w.live tok with
  | error e => rfl
  | ok p =>
    dsimp only
    rw [hmay]
    cases w.mayTake t .registry with
    | error e => rfl
    | ok u =>
      by_cases hfull : 0 < p.maxInstances ∧ p.maxInstances ≤ p.registry.size
      · simp only [Bind.bind, Except.bind, if_pos hfull]
      · simp only [Bind.bind, Except.bind, if_neg hfull]
        rfl

/-- To withdraw an instance takes two looks at the process, and then one step with the registry. -/
theorem withdraw_eq (w : World) (t : ThreadId) (tok : Token) (id : InstanceId) :
    w.withdraw t tok id = (do
      let _ ← w.live tok
      w.checkOwner tok id
      w.unregister t tok id) := by
  unfold withdraw unregister
  cases hp : w.live tok with
  | error e => rfl
  | ok p =>
    have hregisters : w.registers tok id = p.registry.contains id := by
      unfold registers
      rw [(live_ok.1 hp).1]
      rfl
    rw [hregisters]
    rfl

/-- An instance that is accepted is registered, where there was room. -/
theorem accept_ok {parent? : Option InstanceId} (h : w.accept t tok parent? id = .ok w') :
    w.mayTake t .registry = .ok () ∧ ∃ p, w.live tok = .ok p ∧
      (p.maxInstances ≠ 0 → p.registry.size < p.maxInstances) ∧
      w' = w.registered tok parent? id := by
  obtain ⟨_, hmay, h⟩ := bind_eq_ok.1 h
  obtain ⟨p, hp, h⟩ := bind_eq_ok.1 h
  split at h
  · cases h
  · exact ⟨hmay, p, hp, by omega, (Except.ok.inj h).symm⟩

/-- An instance that is unregistered was a member, and no other one is taken. -/
theorem unregister_ok (h : w.unregister t tok id = .ok w') :
    w.mayTake t .registry = .ok () ∧ (∃ p, w.processes.get? tok = some p ∧
      id ∈ p.registry.members) ∧ w' = w.modifyProcess tok (withdrawn id) := by
  obtain ⟨_, hmay, h⟩ := bind_eq_ok.1 h
  split at h
  · next hregisters => exact ⟨hmay, registers_iff.1 hregisters, (Except.ok.inj h).symm⟩
  · cases h

end World

namespace Concurrent

open World

/-! ## Calls under way -/

/-- Why instances are torn down. -/
inductive Purpose where
  | destroy (id : InstanceId)
  -- The process is shut down, which had so many instances.
  | shutdown (count : Nat)
  deriving DecidableEq, Repr

/-- What a call does next. -/
inductive Point where
  -- Look at the parent of the instance to be created.
  | spawn (parent : InstanceId)
  -- See that the process is live.
  | create (parent? : Option InstanceId)
  | draw (parent? : Option InstanceId)
  -- Register the instance.
  | accept (parent? : Option InstanceId) (id : InstanceId)
  -- List the hooks for the creation.
  | announce (id : InstanceId)
  -- Return, when they have been called.
  | keep (id : InstanceId)
  -- See that the process is live and owns the instance.
  | destroy (id : InstanceId)
  -- Take the instance out of the registry.
  | unregister (id : InstanceId)
  -- Change the phase and empty the registry.
  | shutdown
  -- List the hooks for the destruction of the first one of these, or return if there is none.
  | leave (ids : List InstanceId) (purpose : Purpose) (failure? : Option AccessError)
  -- Mark the instance dead, when they have been called.
  | mark (id : InstanceId) (rest : List InstanceId) (purpose : Purpose)
    (failure? : Option AccessError)
  deriving DecidableEq, Repr

/-- A call under way. -/
structure Ongoing where
  thread : ThreadId
  process : Token
  -- The locks that the thread held when it made the call.
  held : Held
  point : Point
  deriving DecidableEq, Repr

/-- What a step of a call is to be remembered for. -/
inductive Deed where
  | drawn (id : InstanceId)
  | registered (id : InstanceId)
  -- A destruction took the instance out of its registry.
  | removed (id : InstanceId)
  -- A shutdown took all these out of theirs.
  | drained (ids : List InstanceId)
  -- A creation returned the instance.
  | created (id : InstanceId)
  -- A destruction of the instance returned.
  | destroyed (id : InstanceId)
  -- A shutdown returned the number of the instances it tore down.
  | shutDown (count : Nat)
  -- A call was refused.
  | refused (e : AccessError)
  deriving DecidableEq, Repr

/-- What was done by a call on a process. -/
structure Event where
  process : Token
  deed : Deed
  deriving DecidableEq, Repr

/-- What comes of a step: the point at which the call goes on, unless it has returned, the world, and
what is to be remembered. -/
structure Advance where
  point? : Option Point
  world : World
  deed? : Option Deed := none

/-- Go on unless the call is refused. -/
def unlessRefused {α : Type} (w : World) (r : Except AccessError α) (f : α → Advance) : Advance :=
  match r with
  | .error e => { point? := none, world := w, deed? := some (.refused e) }
  | .ok a => f a

/-- What the return of a call is remembered as. -/
def Purpose.deed : Purpose → Deed
  | destroy id => .destroyed id
  | shutdown count => .shutDown count

/-- What is left to do when all instances are torn down. -/
def Purpose.conclude (w : World) (t : ThreadId) (tok : Token) : Purpose → World
  | destroy _ => w
  | shutdown _ => w.releaseKey t tok

namespace Ongoing

/-- The call at another point. -/
def goTo (c : Ongoing) (p : Point) : Ongoing := { c with point := p }

/-- The next step of a call. -/
def next (c : Ongoing) (w : World) : Advance :=
  match c.point with
  | .spawn parent =>
    unlessRefused w (w.checkOwner c.process parent) fun _ =>
      unlessRefused w (w.checkAlive parent) fun _ =>
        { point? := some (.create (some parent)), world := w }
  | .create parent? =>
    unlessRefused w (w.live c.process) fun _ => { point? := some (.draw parent?), world := w }
  | .draw parent? =>
    { point? := some (.accept parent? ⟨w.nextInstance⟩)
      world := w.draw
      deed? := some (.drawn ⟨w.nextInstance⟩) }
  | .accept parent? id =>
    unlessRefused w (w.accept c.thread c.process parent? id) fun w =>
      { point? := some (.announce id), world := w, deed? := some (.registered id) }
  | .announce id =>
    unlessRefused w (w.hooksFor c.thread c.process .created) fun _ =>
      { point? := some (.keep id), world := w }
  | .keep id => { point? := none, world := w, deed? := some (.created id) }
  | .destroy id =>
    unlessRefused w (w.live c.process) fun _ =>
      unlessRefused w (w.checkOwner c.process id) fun _ =>
        { point? := some (.unregister id), world := w }
  | .unregister id =>
    unlessRefused w (w.unregister c.thread c.process id) fun w =>
      { point? := some (.leave [id] (.destroy id) none)
        world := w
        deed? := some (.removed id) }
  | .shutdown =>
    unlessRefused w (w.beginShutdown c.thread c.process) fun (ids, w) =>
      { point? := some (.leave ids (.shutdown ids.length) none)
        world := w
        deed? := some (.drained ids) }
  | .leave (id :: rest) purpose failure? =>
    match w.hooksFor c.thread c.process .destroyed with
    | .ok _ => { point? := some (.mark id rest purpose failure?), world := w }
    | .error e => { point? := some (.mark id rest purpose (failure? <|> some e)), world := w }
  | .mark id rest purpose failure? =>
    { point? := some (.leave rest purpose failure?)
      world := w.tearDown c.thread c.process id }
  | .leave [] purpose failure? =>
    { point? := none
      world := purpose.conclude w c.thread c.process
      deed? := some (match failure? with
        | none => purpose.deed
        | some e => .refused e) }

end Ongoing

/-! ## One call alone -/

/-- A call goes from a point on to its return with no step of another call between. -/
inductive Alone (t : ThreadId) (tok : Token) (held : Held) : Point → World → World → Prop
  | returns {p : Point} {w w' : World} {deed? : Option Deed}
    (h : (Ongoing.mk t tok held p).next w = ⟨none, w', deed?⟩) : Alone t tok held p w w'
  | goesOn {p q : Point} {w v w' : World} {deed? : Option Deed}
    (h : (Ongoing.mk t tok held p).next w = ⟨some q, v, deed?⟩) (hrest : Alone t tok held q v w') :
    Alone t tok held p w w'

section Alone

variable {t : ThreadId} {tok : Token} {held : Held} {w : World}

/-- A creation with no other call between its steps is the creation of the session. -/
theorem alone_create (parent? : Option InstanceId) :
    Alone t tok held (.create parent?) w (w.enroll t tok parent?).2 := by
  rw [enroll_eq]
  cases hlive : w.live tok with
  | error e => exact .returns (by simp only [Ongoing.next, unlessRefused, hlive]; rfl)
  | ok p =>
    refine .goesOn (by simp only [Ongoing.next, unlessRefused, hlive]; rfl) (.goesOn rfl ?_)
    cases haccept : w.draw.accept t tok parent? ⟨w.nextInstance⟩ with
    | error e => exact .returns (by simp only [Ongoing.next, unlessRefused, haccept]; rfl)
    | ok w' =>
      refine .goesOn (by simp only [Ongoing.next, unlessRefused, haccept]; rfl) ?_
      cases hhooks : w'.hooksFor t tok .created with
      | error e => exact .returns (by simp only [Ongoing.next, unlessRefused, hhooks]; rfl)
      | ok hooks =>
        exact .goesOn (by simp only [Ongoing.next, unlessRefused, hhooks]; rfl) (.returns rfl)

/-- A spawn with no other call between its steps is the spawn of the session. -/
theorem alone_spawn (parent : InstanceId) :
    Alone t tok held (.spawn parent) w (w.enrollChild t tok parent).2 := by
  unfold enrollChild
  cases howner : w.checkOwner tok parent with
  | error e => exact .returns (by simp only [Ongoing.next, unlessRefused, howner]; rfl)
  | ok u =>
    cases halive : w.checkAlive parent with
    | error e => exact .returns (by simp only [Ongoing.next, unlessRefused, howner, halive]; rfl)
    | ok u =>
      refine .goesOn (by simp only [Ongoing.next, unlessRefused, howner, halive]; rfl) ?_
      exact alone_create (some parent)

/-- Instances that are torn down with no other call between are torn down one after the other. -/
theorem alone_leave (ids : List InstanceId) (purpose : Purpose) (failure? : Option AccessError) :
    Alone t tok held (.leave ids purpose failure?) w
      (purpose.conclude (ids.foldl (fun w id => w.tearDown t tok id) w) t tok) := by
  induction ids generalizing w failure? with
  | nil => exact .returns rfl
  | cons id ids ih =>
    cases hhooks : w.hooksFor t tok .destroyed with
    | error e => exact .goesOn (by simp only [Ongoing.next, hhooks]; rfl) (.goesOn rfl (ih _))
    | ok hooks => exact .goesOn (by simp only [Ongoing.next, hhooks]; rfl) (.goesOn rfl (ih _))

/-- A destruction with no other call between its steps is the destruction of the session. -/
theorem alone_destroy (id : InstanceId) : Alone t tok held (.destroy id) w
    (match w.withdraw t tok id with
      | .error _ => w
      | .ok w' => w'.tearDown t tok id) := by
  rw [withdraw_eq]
  cases hlive : w.live tok with
  | error e => exact .returns (by simp only [Ongoing.next, unlessRefused, hlive]; rfl)
  | ok p =>
    cases howner : w.checkOwner tok id with
    | error e => exact .returns (by simp only [Ongoing.next, unlessRefused, hlive, howner]; rfl)
    | ok u =>
      refine .goesOn (by simp only [Ongoing.next, unlessRefused, hlive, howner]; rfl) ?_
      simp only [Bind.bind, Except.bind]
      cases hgone : w.unregister t tok id with
      | error e => exact .returns (by simp only [Ongoing.next, unlessRefused, hgone]; rfl)
      | ok w' =>
        refine .goesOn (by simp only [Ongoing.next, unlessRefused, hgone]; rfl) ?_
        exact alone_leave [id] (.destroy id) none

/-- A shutdown with no other call between its steps is the shutdown of the session. -/
theorem alone_shutdown : Alone t tok held .shutdown w
    (match w.beginShutdown t tok with
      | .error _ => w
      | .ok (ids, w') => (ids.foldl (fun w id => w.tearDown t tok id) w').releaseKey t tok) := by
  cases hbegin : w.beginShutdown t tok with
  | error e => exact .returns (by simp only [Ongoing.next, unlessRefused, hbegin]; rfl)
  | ok r =>
    refine .goesOn (by simp only [Ongoing.next, unlessRefused, hbegin]; rfl) ?_
    exact alone_leave r.1 (.shutdown r.1.length) none

end Alone

/-! ## Any number of calls -/

/-- The world, the calls under way, and what their steps are remembered for, the latest first. -/
structure State where
  world : World := {}
  calls : List Ongoing := []
  past : List Event := []

namespace State

/-- A thread makes a call. -/
def begin (s : State) (t : ThreadId) (tok : Token) (p : Point) : State :=
  { s with calls := ⟨t, tok, (s.world.thread t).held, p⟩ :: s.calls }

/-- One of the calls takes a step, and is not under way any more if it has returned. -/
def taken (s : State) (before : List Ongoing) (c : Ongoing) (after : List Ongoing) (a : Advance) :
    State where
  world := a.world
  calls := before ++ (a.point?.map c.goTo).toList ++ after
  past := (a.deed?.map (Event.mk c.process)).toList ++ s.past

/-- A call goes on by one step: the first one after `n` others. It waits as long as its thread holds
other locks than when it made the call. -/
def advance (s : State) (n : Nat) : State :=
  match s.calls.drop n with
  | [] => s
  | c :: after =>
    if (s.world.thread c.thread).held = c.held then
      s.taken (s.calls.take n) c after (c.next s.world)
    else s

/-- Calls go on one after the other. -/
def schedule (s : State) (ns : List Nat) : State := ns.foldl advance s

/-- A call that goes on is one of those under way, and its thread holds what it held at the call. -/
theorem advance_cases (s : State) (n : Nat) : s.advance n = s ∨
    ∃ before c after, s.calls = before ++ c :: after ∧ (s.world.thread c.thread).held = c.held ∧
      s.advance n = s.taken before c after (c.next s.world) := by
  unfold advance
  split
  · exact .inl rfl
  · next c after hdrop =>
    split
    · next hheld =>
      refine .inr ⟨_, c, after, ?_, hheld, rfl⟩
      rw [← hdrop, List.take_append_drop]
    · exact .inl rfl

end State

/-- The points at which calls begin. -/
inductive Point.Opens : Point → Prop
  | create : Opens (.create none)
  | spawn (parent : InstanceId) : Opens (.spawn parent)
  | destroy (id : InstanceId) : Opens (.destroy id)
  | shutdown : Opens .shutdown

/-- What may happen next: a process starts, a thread makes a call, a call goes on, or a thread does
something else, which changes no registry and no life. -/
inductive Transition : State → State → Prop
  | start (s : State) (config : Config) :
    Transition s { s with world := (s.world.start config).2 }
  | begin (s : State) (t : ThreadId) (tok : Token) {p : Point} (h : p.Opens) :
    Transition s (s.begin t tok p)
  | advance (s : State) (n : Nat) : Transition s (s.advance n)
  | calm (s : State) {w : World} (h : Calm s.world w) : Transition s { s with world := w }
  | local (s : State) {t : ThreadId} {w : World} (h : Local t s.world w) :
    Transition s { s with world := w }

/-- The states that there can be. -/
inductive Reachable : State → Prop
  | empty : Reachable {}
  | step {s s' : State} (h : Reachable s) (hstep : Transition s s') : Reachable s'

/-- A call may be made at any state that there can be. -/
theorem Reachable.begin {s : State} (h : Reachable s) (t : ThreadId) (tok : Token) {p : Point}
    (hp : p.Opens) : Reachable (s.begin t tok p) :=
  h.step (.begin s t tok hp)

/-- Calls may go on in any order. -/
theorem Reachable.schedule {s : State} (h : Reachable s) (ns : List Nat) :
    Reachable (s.schedule ns) := by
  induction ns generalizing s with
  | nil => exact h
  | cons n ns ih => exact ih (h.step (.advance s n))

/-! ## What a step does -/

/-- What a call under way has to do with instances. -/
structure Stake where
  -- Drawn for it, and not registered.
  fresh : List InstanceId := []
  -- Registered by it.
  created : List InstanceId := []
  -- Removed by it.
  destroyed : List InstanceId := []
  -- The number of those that it drained.
  swept : List Nat := []
  -- In no registry any more and not yet marked dead.
  out : List InstanceId := []

def Purpose.stake : Purpose → Stake
  | destroy id => { destroyed := [id] }
  | shutdown count => { swept := [count] }

namespace Point

def stake : Point → Stake
  | accept _ id => { fresh := [id] }
  | announce id | keep id => { created := [id] }
  | leave ids purpose _ => { purpose.stake with out := ids }
  | mark id rest purpose _ => { purpose.stake with out := id :: rest }
  | _ => {}

/-- The first failure to list hooks. -/
def failure? : Point → Option AccessError
  | leave _ _ failure? | mark _ _ _ failure? => failure?
  | _ => none

/-- The call has changed the registry. -/
def Inside (p : Point) : Prop := p.stake.created ≠ [] ∨ p.stake.destroyed ≠ [] ∨ p.stake.swept ≠ []

end Point

/-- The call has listed all hooks so far, and the locks that its thread holds let it list more. -/
structure Ongoing.Able (c : Ongoing) : Prop where
  listed : c.point.failure? = none
  clear : c.point.Inside → Session.Clear c.held

/-- What a step of a call can do. -/
inductive Turn (c : Ongoing) (w : World) : Advance → Prop
  -- The call is refused, and an identity may have been drawn in vain.
  | refused (e : AccessError) (h : c.point.stake = { fresh := c.point.stake.fresh }) :
    Turn c w { point? := none, world := w, deed? := some (.refused e) }
  -- Something is looked up.
  | goesOn (p : Point) (h : p.stake = c.point.stake) (hable : (c.goTo p).Able) :
    Turn c w { point? := some p, world := w }
  | draws (parent? : Option InstanceId) (h : c.point = .draw parent?) :
    Turn c w {
      point? := some (.accept parent? ⟨w.nextInstance⟩)
      world := w.draw
      deed? := some (.drawn ⟨w.nextInstance⟩) }
  | accepts {parent? : Option InstanceId} {id : InstanceId} {p : Process}
    (h : c.point = .accept parent? id) (hclear : Session.Clear c.held) (hp : w.live c.process = .ok p)
    (hroom : p.maxInstances ≠ 0 → p.registry.size < p.maxInstances) :
    Turn c w {
      point? := some (.announce id)
      world := w.registered c.process parent? id
      deed? := some (.registered id) }
  | returns {id : InstanceId} (h : c.point = .keep id) :
    Turn c w { point? := none, world := w, deed? := some (.created id) }
  | removes {id : InstanceId} {p : Process} (h : c.point = .unregister id)
    (hclear : Session.Clear c.held) (hp : w.processes.get? c.process = some p)
    (hmem : id ∈ p.registry.members) :
    Turn c w {
      point? := some (.leave [id] (.destroy id) none)
      world := w.modifyProcess c.process (withdrawn id)
      deed? := some (.removed id) }
  | drains {ids : List InstanceId} {w' : World} (h : c.point = .shutdown)
    (hclear : Session.Clear c.held) (hw : w.beginShutdown c.thread c.process = .ok (ids, w')) :
    Turn c w {
      point? := some (.leave ids (.shutdown ids.length) none)
      world := w'
      deed? := some (.drained ids) }
  | marks {id : InstanceId} {rest : List InstanceId} {purpose : Purpose}
    (h : c.point = .mark id rest purpose none) :
    Turn c w {
      point? := some (.leave rest purpose none)
      world := w.tearDown c.thread c.process id }
  | ends {purpose : Purpose} (h : c.point = .leave [] purpose none) :
    Turn c w {
      point? := none
      world := purpose.conclude w c.thread c.process
      deed? := some (purpose.deed) }

variable {c : Ongoing} {w : World} {a : Advance}

/-- A call that is refused has no stake in what it asked for. -/
theorem unlessRefused_turn {α : Type} {r : Except AccessError α} {f : α → Advance}
    (h : c.point.stake = { fresh := c.point.stake.fresh }) (hf : ∀ a, r = .ok a → Turn c w (f a)) :
    Turn c w (unlessRefused w r f) := by
  unfold unlessRefused
  split
  · exact .refused _ h
  · next a => exact hf a rfl

/-- A step takes one of these turns. That hooks cannot be listed is not among them: a call that has
changed the registry had its lock, which ranks below that of the hooks. -/
theorem Ongoing.turn (hable : c.Able) (hheld : (w.thread c.thread).held = c.held) :
    Turn c w (c.next w) := by
  obtain ⟨t, tok, held, point⟩ := c
  obtain ⟨hlisted, hclear⟩ := hable
  dsimp only at hlisted hclear hheld
  have hhooks : Session.Clear held → ∀ e, w.hooksFor t tok e = .ok (w.listed tok e) := fun hclear e =>
    hooksFor_ok (hheld.symm ▸ hclear) tok e
  -- as long as the call has not changed the registry it may be refused at any point
  cases point with
  | spawn parent =>
    refine unlessRefused_turn rfl fun _ _ => ?_
    refine unlessRefused_turn rfl fun _ _ => ?_
    exact .goesOn _ rfl ⟨rfl, hclear⟩
  | create parent? =>
    refine unlessRefused_turn rfl fun _ _ => ?_
    exact .goesOn _ rfl ⟨rfl, hclear⟩
  | draw parent? => exact .draws parent? rfl
  | accept parent? id =>
    refine unlessRefused_turn rfl fun w' hw => ?_
    obtain ⟨hmay, p, hp, hroom, rfl⟩ := accept_ok hw
    exact .accepts rfl (hheld ▸ mayTake_ok.1 hmay) hp hroom
  | announce id =>
    -- from here on nothing can go wrong any more
    have hlist := hhooks (hclear (by simp [Point.Inside, Point.stake])) .created
    unfold next
    dsimp only
    rw [hlist]
    exact .goesOn _ rfl ⟨rfl, hclear⟩
  | keep id => exact .returns rfl
  | destroy id =>
    refine unlessRefused_turn rfl fun _ _ => ?_
    refine unlessRefused_turn rfl fun _ _ => ?_
    exact .goesOn _ rfl ⟨rfl, hclear⟩
  | unregister id =>
    refine unlessRefused_turn rfl fun w' hw => ?_
    obtain ⟨hmay, ⟨p, hp, hmem⟩, rfl⟩ := unregister_ok hw
    exact .removes rfl (hheld ▸ mayTake_ok.1 hmay) hp hmem
  | shutdown =>
    refine unlessRefused_turn rfl fun ⟨ids, w'⟩ hw => ?_
    exact .drains rfl (hheld ▸ mayTake_ok.1 (mayTake_of_beginShutdown hw)) hw
  | leave ids purpose failure? =>
    obtain rfl : failure? = none := hlisted
    cases ids with
    | nil => exact .ends rfl
    | cons id rest =>
      have hinside : (Point.leave (id :: rest) purpose none).Inside := by
        cases purpose <;> simp [Point.Inside, Point.stake, Purpose.stake]
      have hlist := hhooks (hclear hinside) .destroyed
      unfold next
      dsimp only
      rw [hlist]
      exact .goesOn _ rfl ⟨rfl, hclear⟩
  | mark id rest purpose failure? =>
    obtain rfl : failure? = none := hlisted
    exact .marks rfl

end Concurrent

end TieredState
