import TieredState.Proofs.HookDispatch

/-!
# Creation comes before destruction

Hooks set the state of a subsystem up when an instance is created and tear it down when the instance
is destroyed. The instance is registered before the first hook for its creation is called, so each of
these can destroy it, or shut down the process, with the others still to be called. An instance to
which this does not happen has them all called while it is registered and alive, and done with before
it is taken from its registry: `set_up_before_torn_down`. To one that is removed earlier the rest of
them are called when it is dead: `set_up_when_dead`.
-/

namespace TieredState

namespace Session

/-- A process that is kept in existence is left as it is by a sweep. -/
theorem get?_sweep_of_held {s : Session} {tokens : List Token} {tok : Token} (hheld : tok ∈ tokens)
    (t : ThreadId) (ids : List InstanceId) :
    (s.sweep t tokens ids).world.processes.get? tok = s.world.processes.get? tok := by
  rw [processes_sweep, if_neg fun hlost => (mem_lost.1 hlost).2 (List.mem_append_right _ hheld)]

end Session

namespace Machine

open World Session

/-- Hooks for the creation of the instance are being called, or are still to be. -/
def creating (m : Machine) (tok : Token) (id : InstanceId) : Bool :=
  m.dispatches.any (·.concerns .created tok id)

/-- The instance was taken from its registry when hooks for its creation were being called. -/
def removedEarly (tok : Token) (id : InstanceId) (past : List Machine) : Bool :=
  past.any fun m => m.withdraws tok id && m.creating tok id

variable {m : Machine} {past : List Machine} {e : HookEvent} {tok : Token} {id : InstanceId}
  {d : Dispatch} {c : CallbackId}

/-- An instance is not removed early if no step of the past has done so. -/
theorem removedEarly_cons : removedEarly tok id (m :: past) = false ↔
    (m.withdraws tok id = true → m.creating tok id = false) ∧ removedEarly tok id past = false := by
  unfold removedEarly
  rw [List.any_cons, Bool.or_eq_false_iff, Bool.and_eq_false_imp]

/-- Hooks for a creation are being called if one of the dispatches is for it. -/
theorem creating_iff : m.creating tok id = true ↔
    ∃ d ∈ m.dispatches, d.concerns .created tok id = true := List.any_eq_true

/-- A hook is called in a dispatch under way, in which it is still to be called. -/
theorem pending_of_called (h : m.called? = some (d, c)) : d ∈ m.dispatches ∧ c ∈ d.pending := by
  obtain ⟨callback, rest, job, below, -, hpending, hstack, -⟩ := act_of_called? h
  rw [dispatches_of_dispatch hstack, hpending]
  exact ⟨List.mem_cons_self, List.mem_cons_self⟩

/-- A step that calls hooks for an event of an instance is in a dispatch of that event. -/
theorem called_of_callsFor (h : m.callsFor e tok id ≠ []) :
    ∃ d c, m.called? = some (d, c) ∧ d.concerns e tok id = true := by
  unfold callsFor at h
  split at h
  · next d c hcalled =>
    split at h
    · next hconcerns => exact ⟨d, c, hcalled, hconcerns⟩
    · exact absurd rfl h
  · exact absurd rfl h

/-- What a step calls was still to be called. -/
theorem toCall_of_callsFor (h : m.callsFor e tok id ≠ []) : m.toCall e tok id ≠ [] := by
  obtain ⟨d, c, hcalled, hconcerns⟩ := called_of_callsFor h
  obtain ⟨hd, hc⟩ := pending_of_called hcalled
  have hremaining : d.remaining e tok id = d.pending := if_pos hconcerns
  exact List.ne_nil_of_mem (List.mem_flatMap.2 ⟨d, hd, hremaining ▸ hc⟩)

/-- What is still to be called is so for a creation under way. -/
theorem toCall_of_not_creating (h : m.creating tok id = false) : m.toCall .created tok id = [] := by
  unfold toCall
  rw [List.flatMap_eq_nil_iff]
  intro d hd
  have hnot : ¬d.concerns .created tok id := fun hconcerns =>
    Bool.eq_false_iff.1 h (creating_iff.2 ⟨d, hd, hconcerns⟩)
  exact if_neg hnot

/-! ## Steps -/

/-- A creation that is under way after a step was so before it, or the step registers the instance. -/
theorem DispatchTurn.creating (h : DispatchTurn m) (hcreating : m.act.creating tok id = true) :
    m.creating tok id = true ∨ m.act.session.world.registers tok id = true := by
  obtain ⟨d₁, hd₁, hconcerns⟩ := creating_iff.1 hcreating
  have hbefore : d₁ ∈ m.dispatches → m.creating tok id = true :=
    fun hmem => creating_iff.2 ⟨d₁, hmem, hconcerns⟩
  -- the dispatch of a destruction is of no creation
  have hnot : ∀ {d : Dispatch}, d.event = .destroyed → d₁ ≠ d := by
    rintro d hevent rfl
    rw [(Dispatch.concerns_iff.1 hconcerns).1] at hevent
    cases hevent
  cases h with
  | still _ _ hact _ => exact .inl (hbefore (hact ▸ hd₁))
  | creates _ _ hact _ hevent _ _ _ hregs =>
    rw [hact] at hd₁
    rcases List.mem_cons.1 hd₁ with rfl | hd₁
    · obtain ⟨-, rfl, rfl⟩ := Dispatch.concerns_iff.1 hconcerns
      exact .inr ((hregs _ _).2 (.inl ⟨rfl, rfl⟩))
    · exact .inl (hbefore hd₁)
  | removes _ _ hact _ hevent =>
    rw [hact] at hd₁
    exact .inl (hbefore ((List.mem_cons.1 hd₁).resolve_left (hnot hevent)))
  | @calls d ds c rest _ _ hstack _ hact =>
    rw [hact] at hd₁
    refine .inl (creating_iff.2 ?_)
    rw [hstack]
    rcases List.mem_cons.1 hd₁ with rfl | hd₁
    · exact ⟨d, List.mem_cons_self, hconcerns⟩
    · exact ⟨d₁, List.mem_cons_of_mem _ hd₁, hconcerns⟩
  | finishes _ _ hstack _ _ hact =>
    refine .inl (hbefore ?_)
    rw [hstack]
    exact List.mem_cons_of_mem _ (hact ▸ hd₁)
  | goesOn _ _ hstack _ hact _ hevent =>
    refine .inl (hbefore ?_)
    rw [hact] at hd₁
    rw [hstack]
    exact List.mem_cons_of_mem _ ((List.mem_cons.1 hd₁).resolve_left (hnot hevent))

/-- A dispatch keeps its process in existence. -/
theorem held_of_dispatch (hd : d ∈ m.dispatches) : d.process ∈ m.heldTokens := by
  obtain ⟨f, hf, hin⟩ := List.mem_flatMap.1 hd
  refine List.mem_flatMap.2 ⟨f, hf, ?_⟩
  cases f with
  | body b => cases hin
  | dispatch d' job =>
    obtain rfl := List.mem_singleton.1 hin
    exact List.mem_singleton_self _

/-- Where hooks for its creation are being called, an instance is not lost in the sweep. -/
theorem registers_step_of_creating (hcreating : m.act.creating tok id = true) :
    m.step.session.world.registers tok id = m.act.session.world.registers tok id := by
  obtain ⟨d, hd, hconcerns⟩ := creating_iff.1 hcreating
  obtain ⟨-, rfl, -⟩ := Dispatch.concerns_iff.1 hconcerns
  have hget := get?_sweep_of_held (s := m.act.session) (held_of_dispatch hd) m.actor m.act.heldIds
  have hstep : m.step.session.world.processes.get? d.process =
      m.act.session.world.processes.get? d.process := hget
  unfold registers
  rw [hstep]

/-- While hooks for its creation are being called, an instance is registered, unless it was removed
before they were done with. -/
theorem registers_of_creating (hm : History orderly past m) (hcreating : m.creating tok id = true)
    (hlate : removedEarly tok id past = false) : m.session.world.registers tok id = true := by
  obtain ⟨files, environment, fieldCount, script, htrace⟩ := hm
  induction htrace with
  | start => cases hcreating
  | @step past m htrace hok ih =>
    have hreach : Reachable orderly m := ⟨files, environment, fieldCount, script, htrace.run⟩
    have hact : m.act.creating tok id = true := hcreating
    rw [registers_step_of_creating hact]
    obtain ⟨hnot, hlate⟩ := removedEarly_cons.1 hlate
    rcases (dispatchTurn_of_reachable hreach hok).creating hact with hbefore | hreg
    · -- what is registered before the step and not after it is removed by the step
      have hreg := ih hbefore hlate
      by_contra hgone
      rw [hnot (withdraws_iff.2 ⟨hreg, Bool.eq_false_iff.2 hgone⟩)] at hbefore
      cases hbefore
    · exact hreg
  | @redirect past m htrace steps ih =>
    rw [world_redirect]
    refine ih ?_ hlate
    unfold creating at hcreating
    rw [dispatches_redirect] at hcreating
    exact hcreating

/-! ## The hooks of an instance -/

/-- The hooks of a subsystem are called for an instance in a process as it is to be. -/
structure Lockstep (past : List Machine) (m : Machine) (tok : Token) (id : InstanceId) : Prop where
  setsUp : m.callsFor .created tok id ≠ [] → m.creating tok id = true
  tearsDown : m.callsFor .destroyed tok id ≠ [] → 0 < past.countP (·.withdraws tok id)
  /-- While hooks for its creation are called, the instance is registered and alive. -/
  alive : m.creating tok id = true →
    m.session.world.registers tok id = true ∧ m.session.world.isLive id = true
  /-- Until they are done with, nothing of its destruction has begun. -/
  untouched : m.creating tok id = true → past.countP (·.withdraws tok id) = 0 ∧
    past.countP (·.begins .destroyed tok id) = 0 ∧ calls .destroyed tok id past = []
  /-- From its removal on they are done with, and all of them were called. -/
  finished : 0 < past.countP (·.withdraws tok id) →
    m.creating tok id = false ∧ calls .created tok id past = hooksAtBegin .created tok id past

/-- Hooks that are called, or still to be called, are so in a dispatch. -/
theorem begins_of_calls (h : Dispatching past m tok id e)
    (hcalls : calls e tok id past ≠ [] ∨ m.toCall e tok id ≠ []) :
    0 < past.countP (·.begins e tok id) := by
  refine Nat.pos_of_ne_zero fun hnever => ?_
  have hcalled := h.called
  rw [hooksAtBegin_of_none hnever, List.append_eq_nil_iff] at hcalled
  exact hcalls.elim (absurd hcalled.1) (absurd hcalled.2)

/-- At every point of every run of orderly steps, whatever hooks do: an instance that was not removed
while hooks for its creation were being called has all of them called before anything of its
destruction begins, and each of them while it is registered and alive. -/
theorem set_up_before_torn_down (hm : History orderly past m) (tok : Token) (id : InstanceId)
    (hlate : removedEarly tok id past = false) : Lockstep past m tok id := by
  obtain ⟨htally, hdispatches⟩ := dispatching_of_history hm
  have hdispatching : ∀ e, Dispatching past m tok id e := fun e => (hdispatches tok e).2 id
  -- what has happened to the instance so far: it was registered once, and removed at most once
  have honce := htally.once tok id
  have hremoved := htally.removed tok id
  have hdestroyed := htally.destroyed tok id
  have hthere : m.creating tok id = true → m.session.world.registers tok id = true :=
    fun hcreating => registers_of_creating hm hcreating hlate
  refine {
    setsUp := fun hcalls => ?_
    tearsDown := fun hcalls => ?_
    alive := fun hcreating => ⟨hthere hcreating, ?_⟩
    untouched := fun hcreating => ?_
    finished := fun hgone => ?_ }
  · obtain ⟨d, c, hcalled, hconcerns⟩ := called_of_callsFor hcalls
    exact creating_iff.2 ⟨d, (pending_of_called hcalled).1, hconcerns⟩
  · have hbegun := begins_of_calls (hdispatching .destroyed) (.inr (toCall_of_callsFor hcalls))
    omega
  · obtain ⟨p, hp, hmem⟩ := registers_iff.1 (hthere hcreating)
    exact (sound_of_reachable hm.reachable).registry.live_of_member hp hmem
  · -- it was registered once, and is so still
    rw [hthere hcreating, Bool.toNat_true] at hremoved
    have hnever : past.countP (·.begins .destroyed tok id) = 0 := by omega
    refine ⟨by omega, hnever, ?_⟩
    by_contra hcalls
    exact absurd (begins_of_calls (hdispatching .destroyed) (.inl hcalls)) (by omega)
  · have hover : m.creating tok id = false := by
      rw [Bool.eq_false_iff]
      intro hcreating
      rw [hthere hcreating, Bool.toNat_true] at hremoved
      omega
    have hcalled := (hdispatching .created).called
    rw [toCall_of_not_creating hover, List.append_nil] at hcalled
    exact ⟨hover, hcalled⟩

/-- A program with a hook for the creation of instances and one for their destruction. -/
def setUpAndTornDown : Machine :=
  start default default 0 [
    .call none (.start "p" none),
    .register none ⟨some "p", .created, none, "a", 0⟩ [],
    .register none ⟨some "p", .destroyed, none, "d", 0⟩ [],
    .call none (.process "p" (.create (some "i"))),
    .call none (.process "p" (.destroy "i"))]

/-- When the second hook is called, the first one has been. -/
theorem set_up_when_torn_down :
    (setUpAndTornDown.run 7).callsFor .destroyed ⟨1⟩ ⟨1⟩ = [⟨1⟩] ∧
      calls .created ⟨1⟩ ⟨1⟩ (trail 7 setUpAndTornDown []) = [⟨0⟩] := by
  have hm : History orderly (trail 7 setUpAndTornDown []) (setUpAndTornDown.run 7) :=
    .of_run (by decide +kernel)
  have hcalls : (setUpAndTornDown.run 7).callsFor .destroyed ⟨1⟩ ⟨1⟩ = [⟨1⟩] := by decide +kernel
  have hlisted : hooksAtBegin .created ⟨1⟩ ⟨1⟩ (trail 7 setUpAndTornDown []) = [⟨0⟩] := by
    decide +kernel
  have hlockstep := set_up_before_torn_down hm ⟨1⟩ ⟨1⟩ (by decide +kernel)
  have hremoved := hlockstep.tearsDown (hcalls ▸ List.cons_ne_nil _ _)
  exact ⟨hcalls, (hlockstep.finished hremoved).2.trans hlisted⟩

/-- A program with two hooks for the creation of instances, the first of which destroys them, and one
for their destruction. -/
def destroyedByHook : Machine :=
  start default default 0 [
    .call none (.start "p" none),
    .register none ⟨some "p", .created, none, "a", 1⟩ [.call none (.process "p" (.destroy "$"))],
    .register none ⟨some "p", .created, none, "b", 0⟩ [],
    .register none ⟨some "p", .destroyed, none, "d", 0⟩ [],
    .call none (.process "p" (.create (some "i")))]

/-- It is not so that a hook for a creation is called while the instance is alive and before any hook
for its destruction. -/
theorem set_up_when_dead :
    ¬ ∀ (past : List Machine) (m : Machine) (tok : Token) (id : InstanceId),
      History orderly past m → m.callsFor .created tok id ≠ [] →
      m.session.world.isLive id = true ∧ calls .destroyed tok id past = [] := by
  intro hall
  have hm : History orderly (trail 10 destroyedByHook []) (destroyedByHook.run 10) :=
    .of_run (by decide +kernel)
  have hcalls : (destroyedByHook.run 10).callsFor .created ⟨1⟩ ⟨1⟩ = [⟨1⟩] := by decide +kernel
  have hdead : (destroyedByHook.run 10).session.world.isLive ⟨1⟩ = false := by decide +kernel
  obtain ⟨hlive, -⟩ := hall _ _ ⟨1⟩ ⟨1⟩ hm (hcalls ▸ List.cons_ne_nil _ _)
  rw [hdead] at hlive
  cases hlive

end Machine

end TieredState
