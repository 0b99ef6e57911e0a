import TieredState.Proofs.HookLists
import TieredState.Proofs.Trace

/-!
# Hooks are dispatched once

Every instance that is registered has one dispatch of its creation, and one of its destruction if it
is taken from its registry. In between, and while the hooks run, other code may register and remove
hooks, create, destroy and shut down. None of this adds or removes a dispatch, or changes the hooks
that a dispatch calls: those that were listed when it began, each once, in the order of their
registration.

* `Tally` — what is registered and removed, against what is dispatched, in the past of a run.
* `hooks_dispatched_once` — the dispatches of an instance and the calls of its hooks, at every point of
  every run.
-/

namespace TieredState.Machine

open World Session

/-! ## What one step does -/

section Step

variable (m : Machine) (e : HookEvent) (tok : Token) (id : InstanceId)

/-- The next step registers the instance with the process. -/
def enrolls : Bool :=
  !m.session.world.registers tok id && m.act.session.world.registers tok id

/-- The next step takes the instance from the registry of the process. -/
def withdraws : Bool :=
  m.session.world.registers tok id && !m.act.session.world.registers tok id

/-- The next step begins a dispatch. -/
def begins : Bool := m.begun?.any (·.concerns e tok id)

/-- The hook that the next step calls in a dispatch of the event, if it calls one. -/
def callsFor : List CallbackId :=
  match m.called? with
  | some (d, c) => if d.concerns e tok id then [c] else []
  | none => []

/-- The hooks that the next step adds to those of the process. -/
def adds : List CallbackId :=
  (m.act.session.world.listed tok e).filter (· ∉ m.session.world.listed tok e)

/-- How often shutdowns under way have yet to come to the instance. -/
def waiting : Nat := m.dispatches.foldr (fun d n => d.awaits tok id + n) 0

/-- The hooks still to be called in the dispatches of the event that are under way. -/
def toCall : List CallbackId := m.dispatches.flatMap (·.remaining e tok id)

end Step

/-! ## What the past has seen -/

/-- The hooks that were called in dispatches of the event, in the order of the calls. -/
def calls (e : HookEvent) (tok : Token) (id : InstanceId) (past : List Machine) : List CallbackId :=
  past.reverse.flatMap (·.callsFor e tok id)

/-- The hooks that the process had for the event when the latest dispatch for the instance began. -/
def hooksAtBegin (e : HookEvent) (tok : Token) (id : InstanceId) (past : List Machine) :
    List CallbackId :=
  match past.find? (·.begins e tok id) with
  | some m => m.session.world.listed tok e
  | none => []

/-- The hooks that the process was given for the event, in the order of their registration. -/
def registrations (tok : Token) (e : HookEvent) (past : List Machine) : List CallbackId :=
  past.reverse.flatMap (·.adds e tok)

variable {m : Machine} {past : List Machine} {e : HookEvent} {tok tok' : Token} {id : InstanceId}

/-- What the latest step called comes last. -/
theorem calls_cons : calls e tok id (m :: past) = calls e tok id past ++ m.callsFor e tok id := by
  simp [calls]

/-- What the latest step registered comes last. -/
theorem registrations_cons :
    registrations tok e (m :: past) = registrations tok e past ++ m.adds e tok := by
  simp [registrations]

/-- When a dispatch begins, the hooks are those that are listed now. -/
theorem hooksAtBegin_of_begins (h : m.begins e tok id = true) :
    hooksAtBegin e tok id (m :: past) = m.session.world.listed tok e := by
  simp only [hooksAtBegin, List.find?_cons, h]

/-- When none begins, the hooks are those of the latest that did. -/
theorem hooksAtBegin_of_not_begins (h : m.begins e tok id = false) :
    hooksAtBegin e tok id (m :: past) = hooksAtBegin e tok id past := by
  simp only [hooksAtBegin, List.find?_cons, h]

/-- Before any dispatch there are no hooks for it. -/
theorem hooksAtBegin_of_none (h : past.countP (·.begins e tok id) = 0) :
    hooksAtBegin e tok id past = [] := by
  unfold hooksAtBegin
  rw [List.find?_eq_none.2 (List.countP_eq_zero.1 h)]

/-! ## Steps -/

/-- A dispatch that begins is of one event of one instance. -/
theorem begins_iff {d : Dispatch} (h : m.begun? = some d) :
    m.begins e tok id = true ↔ d.event = e ∧ d.process = tok ∧ d.target = id := by
  unfold begins
  rw [h]
  exact Dispatch.concerns_iff

/-- A step that begins no dispatch begins none of the event. -/
theorem begins_of_none (h : m.begun? = none) : m.begins e tok id = false := by
  unfold begins
  rw [h]
  rfl

/-- What a dispatch of a destruction has before it: what it is for, and what it comes to later. -/
theorem begins_add_awaits {d : Dispatch} (h : m.begun? = some d) (hevent : d.event = .destroyed) :
    (m.begins .destroyed tok id).toNat + d.awaits tok id =
      if d.process = tok then (d.target :: d.awaiting).count id else 0 := by
  have hbegins : m.begins .destroyed tok id = true ↔ d.process = tok ∧ d.target = id := by
    rw [begins_iff h, hevent]
    exact and_iff_right rfl
  unfold Dispatch.awaits
  by_cases hprocess : d.process = tok
  · rw [if_pos hprocess, if_pos hprocess]
    by_cases htarget : d.target = id
    · rw [hbegins.2 ⟨hprocess, htarget⟩, htarget, List.count_cons_self, Nat.add_comm]
      rfl
    · rw [Bool.eq_false_iff.2 fun hb => htarget (hbegins.1 hb).2, List.count_cons_of_ne htarget]
      exact Nat.zero_add _
  · rw [if_neg hprocess, if_neg hprocess, Bool.eq_false_iff.2 fun hb => hprocess (hbegins.1 hb).1]
    rfl

/-- An instance is registered by a step if it was not before and is so afterwards. -/
theorem enrolls_iff : m.enrolls tok id = true ↔
    m.session.world.registers tok id = false ∧ m.act.session.world.registers tok id = true := by
  simp [enrolls]

/-- An instance is withdrawn by a step if it was registered before and is not so afterwards. -/
theorem withdraws_iff : m.withdraws tok id = true ↔
    m.session.world.registers tok id = true ∧ m.act.session.world.registers tok id = false := by
  simp [withdraws]

/-- Where registries stay, nothing is registered and nothing is withdrawn. -/
theorem enrolls_of_same (h : SameRegistries m.session.world m.act.session.world) :
    m.enrolls tok id = false ∧ m.withdraws tok id = false := by
  unfold enrolls withdraws
  rw [h]
  simp

/-- What has not been drawn yet is not registered. -/
theorem not_registers_next (hs : m.Sound) (tok : Token) :
    m.session.world.registers tok ⟨m.session.world.nextInstance⟩ = false := by
  refine Bool.eq_false_iff.2 fun hreg => ?_
  obtain ⟨p, hp, hmem⟩ := registers_iff.1 hreg
  obtain ⟨-, i, hi, -⟩ := hs.registry.member tok p _ hp hmem
  exact Nat.lt_irrefl _ (hs.registry.instanceDrawn _ i hi).1

namespace DispatchTurn

/-- An instance is registered by the step that begins the dispatch of its creation. -/
theorem enrolls_eq (h : DispatchTurn m) (hs : m.Sound) (tok : Token) (id : InstanceId) :
    m.enrolls tok id = m.begins .created tok id := by
  cases h with
  | still hbegun _ _ hregs | calls hbegun _ _ _ _ hregs | finishes hbegun _ _ _ _ _ hregs =>
    rw [begins_of_none hbegun, (enrolls_of_same hregs).1]
  | @creates d hbegun hcalled hact hpending hevent hawait hnew hnext hregs =>
    -- the instance that is created was never registered before, and nothing else joins a registry
    rw [Bool.eq_iff_iff, begins_iff hbegun, enrolls_iff, hregs]
    constructor
    · rintro ⟨hnot, ⟨rfl, rfl⟩ | hreg⟩
      · exact ⟨hevent, rfl, rfl⟩
      · rw [hnot] at hreg
        cases hreg
    · rintro ⟨-, rfl, rfl⟩
      rw [hnew]
      exact ⟨not_registers_next hs _, .inl ⟨rfl, rfl⟩⟩
  | @removes d hbegun hcalled hact hpending hevent hnodup hcall hmem hregs =>
    rw [Bool.eq_iff_iff, begins_iff hbegun, enrolls_iff, hregs, hevent]
    constructor
    · rintro ⟨hnot, hreg, -⟩
      rw [hnot] at hreg
      cases hreg
    · rintro ⟨hcreated, -⟩
      cases hcreated
  | goesOn hbegun _ _ _ _ _ hevent _ _ hregs =>
    rw [(enrolls_of_same hregs).1, eq_comm, Bool.eq_false_iff, ne_eq, begins_iff hbegun, hevent]
    rintro ⟨hcreated, -⟩
    cases hcreated

/-- What is registered gets an identity of its own. -/
theorem drawn_of_enrolls (h : DispatchTurn m) (henrolls : m.enrolls tok id = true) :
    id = ⟨m.session.world.nextInstance⟩ ∧
      m.act.session.world.nextInstance = m.session.world.nextInstance + 1 ∧
      ∃ d, m.begun? = some d ∧ d.process = tok := by
  obtain ⟨hnot, hreg⟩ := enrolls_iff.1 henrolls
  cases h with
  | still _ _ _ hregs | calls _ _ _ _ _ hregs | finishes _ _ _ _ _ _ hregs
  | goesOn _ _ _ _ _ _ _ _ _ hregs =>
    rw [(enrolls_of_same hregs).1] at henrolls
    cases henrolls
  | @creates d hbegun hcalled hact hpending hevent hawait hnew hnext hregs =>
    rcases (hregs tok id).1 hreg with ⟨rfl, rfl⟩ | hold
    · exact ⟨hnew, hnext, d, hbegun, rfl⟩
    · rw [hnot] at hold
      cases hold
  | removes _ _ _ _ _ _ _ _ hregs =>
    rw [((hregs tok id).1 hreg).1] at hnot
    cases hnot

/-- What is taken from a registry is what the dispatch is for, and what it comes to later. -/
theorem withdraws_toNat {d : Dispatch} (hnodup : (d.target :: d.awaiting).Nodup)
    (hmem : ∀ id ∈ d.target :: d.awaiting, m.session.world.registers d.process id = true)
    (hregs : ∀ tok id, m.act.session.world.registers tok id = true ↔
      m.session.world.registers tok id = true ∧ ¬(tok = d.process ∧ id ∈ d.target :: d.awaiting)) :
    (m.withdraws tok id).toNat =
      if d.process = tok then (d.target :: d.awaiting).count id else 0 := by
  have hwithdraws : m.withdraws tok id = true ↔ d.process = tok ∧ id ∈ d.target :: d.awaiting := by
    rw [withdraws_iff, Bool.eq_false_iff, ne_eq, hregs, not_and_not_right]
    constructor
    · rintro ⟨hreg, hgone⟩
      obtain ⟨rfl, hin⟩ := hgone hreg
      exact ⟨rfl, hin⟩
    · rintro ⟨rfl, hin⟩
      exact ⟨hmem id hin, fun _ => ⟨rfl, hin⟩⟩
  rw [hnodup.count, ← ite_and]
  cases hw : m.withdraws tok id with
  | true => exact (if_pos (hwithdraws.1 hw)).symm
  | false => exact (if_neg fun h => Bool.eq_false_iff.1 hw (hwithdraws.2 h)).symm

/-- An instance is taken from a registry by the step that begins the dispatch of its destruction, or
by one after which it waits for it. -/
theorem withdraws_add (h : DispatchTurn m) (tok : Token) (id : InstanceId) :
    (m.withdraws tok id).toNat + m.waiting tok id =
      (m.begins .destroyed tok id).toNat + m.act.waiting tok id := by
  unfold waiting
  cases h with
  | still hbegun _ hact hregs => rw [begins_of_none hbegun, (enrolls_of_same hregs).2, hact]
  | calls hbegun _ hstack _ hact hregs =>
    rw [begins_of_none hbegun, (enrolls_of_same hregs).2, hact, hstack]
    rfl
  | finishes hbegun _ hstack _ hawait hact hregs =>
    rw [begins_of_none hbegun, (enrolls_of_same hregs).2, hact, hstack, List.foldr_cons,
      Dispatch.awaits_of_nil hawait, Nat.zero_add]
  | @creates d hbegun hcalled hact hpending hevent hawait hnew hnext hregs =>
    have hbegins : m.begins .destroyed tok id = false := by
      rw [Bool.eq_false_iff, ne_eq, begins_iff hbegun, hevent]
      rintro ⟨hdestroyed, -⟩
      cases hdestroyed
    have hwithdraws : m.withdraws tok id = false := by
      rw [Bool.eq_false_iff, ne_eq, withdraws_iff]
      rintro ⟨hreg, hnot⟩
      rw [(hregs tok id).2 (.inr hreg)] at hnot
      cases hnot
    rw [hbegins, hwithdraws, hact, List.foldr_cons, Dispatch.awaits_of_nil hawait,
      Nat.zero_add]
  | @removes d hbegun hcalled hact hpending hevent hnodup hcall hmem hregs =>
    rw [withdraws_toNat hnodup hmem hregs, ← begins_add_awaits hbegun hevent, hact, List.foldr_cons,
      Nat.add_assoc]
  | @goesOn d d' ds hbegun _ hstack _ hact _ hevent hprocess hawait hregs =>
    -- what a shutdown comes to next is no longer awaited, and its dispatch begins
    have hhands : d.awaits tok id = (m.begins .destroyed tok id).toNat + d'.awaits tok id := by
      rw [begins_add_awaits hbegun hevent, hprocess, ← hawait]
      rfl
    rw [(enrolls_of_same hregs).2, hact, hstack, List.foldr_cons, List.foldr_cons,
      hhands, Bool.toNat_false, Nat.zero_add, Nat.add_assoc]

/-- An instance is taken from its registry by its destruction or by the shutdown of its process. -/
theorem removes_of_withdraws (h : DispatchTurn m) (hwithdraws : m.withdraws tok id = true) :
    m.Removes tok id := by
  obtain ⟨hreg, hnot⟩ := withdraws_iff.1 hwithdraws
  cases h with
  | still _ _ _ hregs | calls _ _ _ _ _ hregs | finishes _ _ _ _ _ _ hregs
  | goesOn _ _ _ _ _ _ _ _ _ hregs =>
    rw [(enrolls_of_same hregs).2] at hwithdraws
    cases hwithdraws
  | creates _ _ _ _ _ _ _ _ hregs =>
    rw [(hregs tok id).2 (.inr hreg)] at hnot
    cases hnot
  | @removes d hbegun hcalled hact hpending hevent hnodup hcall hmem hregs =>
    rw [Bool.eq_false_iff, ne_eq, hregs, not_and_not_right] at hnot
    obtain ⟨rfl, hin⟩ := hnot hreg
    exact hcall id hin

/-- What a dispatch has to call is what it lists as it begins, less what it has called. -/
theorem calls_add (h : DispatchTurn m) (e : HookEvent) (tok : Token) (id : InstanceId) :
    m.callsFor e tok id ++ m.act.toCall e tok id =
      (if m.begins e tok id then m.session.world.listed tok e else []) ++ m.toCall e tok id := by
  have hnone : m.called? = none → m.callsFor e tok id = [] := by
    intro hcalled
    unfold callsFor
    rw [hcalled]
  -- a dispatch that begins has all the hooks before it
  have hfirst : ∀ d, m.begun? = some d →
      d.pending = m.session.world.listed d.process d.event →
      d.remaining e tok id = if m.begins e tok id then m.session.world.listed tok e else [] := by
    intro d hbegun hpending
    have hconcerns : m.begins e tok id = d.concerns e tok id := by
      unfold begins
      rw [hbegun]
      rfl
    rw [hconcerns]
    unfold Dispatch.remaining
    split
    · next hc =>
      obtain ⟨rfl, rfl, -⟩ := Dispatch.concerns_iff.1 hc
      exact hpending
    · rfl
  unfold toCall
  cases h with
  | still hbegun hcalled hact _ => rw [hnone hcalled, begins_of_none hbegun, hact]; rfl
  | creates hbegun hcalled hact hpending | removes hbegun hcalled hact hpending =>
    rw [hnone hcalled, hact, List.flatMap_cons, hfirst _ hbegun hpending, List.nil_append]
  | finishes hbegun hcalled hstack hpending _ hact _ =>
    rw [hnone hcalled, begins_of_none hbegun, hact, hstack, List.flatMap_cons,
      Dispatch.remaining_of_nil hpending]
    rfl
  | goesOn hbegun hcalled hstack hpending hact hpending' =>
    rw [hnone hcalled, hact, hstack, List.flatMap_cons, List.flatMap_cons,
      Dispatch.remaining_of_nil hpending, hfirst _ hbegun hpending', List.nil_append,
      List.nil_append]
  | @calls d ds c rest hbegun hcalled hstack hpending hact _ =>
    have hcall : m.callsFor e tok id ++
        Dispatch.remaining { d with pending := rest } e tok id = d.remaining e tok id := by
      unfold callsFor Dispatch.remaining
      rw [hcalled, hpending]
      dsimp only
      show _ ++ (if d.concerns e tok id then rest else []) = _
      split <;> rfl
    rw [begins_of_none hbegun, hact, hstack, List.flatMap_cons, List.flatMap_cons, ← List.append_assoc,
      hcall]
    rfl

end DispatchTurn

/-! ## The tally -/

/-- What is registered and removed in the past of a run, against what is dispatched. -/
structure Tally (past : List Machine) (m : Machine) : Prop where
  drawn : ∀ tok id, 0 < past.countP (·.enrolls tok id) → id.number < m.session.world.nextInstance
  once : ∀ tok id, past.countP (·.enrolls tok id) ≤ 1
  home : ∀ tok tok' id, 0 < past.countP (·.enrolls tok id) → 0 < past.countP (·.enrolls tok' id) →
    tok' = tok
  removed : ∀ tok id, past.countP (·.withdraws tok id) + (m.session.world.registers tok id).toNat ≤
    past.countP (·.enrolls tok id)
  created : ∀ tok id, past.countP (·.begins .created tok id) = past.countP (·.enrolls tok id)
  destroyed : ∀ tok id, past.countP (·.withdraws tok id) =
    past.countP (·.begins .destroyed tok id) + m.waiting tok id

/-- The latest step counts first. -/
theorem countP_cons_toNat (p : Machine → Bool) :
    (m :: past).countP p = past.countP p + (p m).toNat := by
  rw [List.countP_cons]
  cases p m <;> rfl

/-- An instance can go from a registry only when it is there. -/
theorem withdraws_registers (m : Machine) (tok : Token) (id : InstanceId) :
    (m.withdraws tok id).toNat + (m.act.session.world.registers tok id).toNat =
      (m.session.world.registers tok id).toNat + (m.enrolls tok id).toNat := by
  unfold withdraws enrolls
  cases m.session.world.registers tok id <;> cases m.act.session.world.registers tok id <;> rfl

/-- What goes at the end of a step is not registered anew. -/
theorem registers_step_le (hact : m.act.Sound) (tok : Token) (id : InstanceId) :
    (m.step.session.world.registers tok id).toNat ≤ (m.act.session.world.registers tok id).toNat := by
  cases hreg : m.step.session.world.registers tok id with
  | false => exact Nat.zero_le _
  | true =>
    obtain ⟨p, hp, hmem⟩ := registers_iff.1 hreg
    have hget := (sound_sweep hact m.actor).2.processes tok p hp
    have hthere := registers_iff.2 ⟨p, hget, hmem⟩
    exact Nat.le_of_eq (congrArg Bool.toNat hthere.symm)

/-- What is registered now was not registered in the past, under whatever process. -/
theorem Tally.fresh (h : Tally past m) (hturn : DispatchTurn m) (henrolls : m.enrolls tok id = true)
    (tok' : Token) : past.countP (·.enrolls tok' id) = 0 := by
  obtain ⟨rfl, -⟩ := hturn.drawn_of_enrolls henrolls
  refine Nat.eq_zero_of_not_pos fun hpos => ?_
  exact Nat.lt_irrefl _ (h.drawn tok' _ hpos)

/-- A step registers an instance with one process. -/
theorem tok_of_enrolls (hturn : DispatchTurn m) (henrolls : m.enrolls tok id = true)
    (henrolls' : m.enrolls tok' id = true) : tok' = tok := by
  obtain ⟨-, -, d, hbegun, rfl⟩ := hturn.drawn_of_enrolls henrolls
  obtain ⟨-, -, d', hbegun', rfl⟩ := hturn.drawn_of_enrolls henrolls'
  rw [Option.some.inj (hbegun'.symm.trans hbegun)]

/-- A step goes on with the tally. -/
theorem tally_step (h : Tally past m) (hok : m.orderly = true) (hs : m.Sound)
    (hturn : DispatchTurn m) : Tally (m :: past) m.step := by
  obtain ⟨hact, -⟩ := sound_act hs hok
  have hgrows := (sound_step hs hok).2
  have hnext : m.step.session.world.nextInstance = m.act.session.world.nextInstance :=
    (sound_sweep hact m.actor).2.nextInstance
  constructor
  · intro tok id hpos
    rw [countP_cons_toNat] at hpos
    cases henrolls : m.enrolls tok id with
    | true =>
      obtain ⟨rfl, hsucc, -⟩ := hturn.drawn_of_enrolls henrolls
      rw [hnext, hsucc]
      exact Nat.lt_succ_self _
    | false =>
      rw [henrolls] at hpos
      exact Nat.lt_of_lt_of_le (h.drawn tok id hpos) hgrows.nextInstance
  · intro tok id
    rw [countP_cons_toNat]
    cases henrolls : m.enrolls tok id with
    | true =>
      rw [h.fresh hturn henrolls tok]
      exact Nat.le_refl 1
    | false => exact h.once tok id
  · intro tok tok' id hpos hpos'
    rw [countP_cons_toNat] at hpos hpos'
    -- one of the two registrations may be new, but then the other one is too
    cases henrolls : m.enrolls tok id with
    | true =>
      cases henrolls' : m.enrolls tok' id with
      | true => exact tok_of_enrolls hturn henrolls henrolls'
      | false =>
        rw [h.fresh hturn henrolls tok', henrolls'] at hpos'
        cases hpos'
    | false =>
      cases henrolls' : m.enrolls tok' id with
      | true =>
        rw [h.fresh hturn henrolls' tok, henrolls] at hpos
        cases hpos
      | false =>
        rw [henrolls] at hpos
        rw [henrolls'] at hpos'
        exact h.home tok tok' id hpos hpos'
  · -- what is removed was registered, and the sweep registers nothing
    intro tok id
    rw [countP_cons_toNat, countP_cons_toNat]
    have hold := h.removed tok id
    have hstep := withdraws_registers m tok id
    have hsweep := registers_step_le hact tok id
    omega
  · intro tok id
    rw [countP_cons_toNat, countP_cons_toNat, h.created, hturn.enrolls_eq hs]
  · intro tok id
    rw [countP_cons_toNat, countP_cons_toNat]
    have hold := h.destroyed tok id
    have hstep := hturn.withdraws_add tok id
    have hsweep : m.step.waiting tok id = m.act.waiting tok id := rfl
    omega

/-- The tally does not depend on the steps still to be taken. -/
theorem Tally.redirect (h : Tally past m) (steps : List Step) : Tally past (m.redirect steps) := by
  have hwaiting : ∀ tok id, (m.redirect steps).waiting tok id = m.waiting tok id := by
    intro tok id
    unfold waiting
    rw [dispatches_redirect]
  refine ⟨?_, h.once, h.home, ?_, h.created, ?_⟩
  · rw [session_redirect]
    exact h.drawn
  · rw [session_redirect]
    exact h.removed
  · intro tok id
    rw [hwaiting]
    exact h.destroyed tok id

/-- An instance has one dispatch of each event at most. -/
theorem Tally.begins_le (h : Tally past m) (e : HookEvent) (tok : Token) (id : InstanceId) :
    past.countP (·.begins e tok id) ≤ past.countP (·.enrolls tok id) := by
  cases e with
  | created => exact Nat.le_of_eq (h.created tok id)
  | destroyed =>
    have hremoved := h.removed tok id
    have hdestroyed := h.destroyed tok id
    omega

/-! ## The hooks of a dispatch -/

/-- Every hook gets an identity of its own, and those that a process has stand in the order of their
registration. -/
structure InOrder (past : List Machine) (m : Machine) (tok : Token) (e : HookEvent) : Prop where
  drawn : ∀ c ∈ registrations tok e past, c.number < m.session.nextCallback
  nodup : (registrations tok e past).Nodup
  listed : (m.session.world.listed tok e).Sublist (registrations tok e past)

/-- Hooks stay in the order of their registration over a step. -/
theorem inOrder_step (h : InOrder past m tok e) : InOrder (m :: past) m.step tok e := by
  have hhooks := hookStep_act m
  have hsweep := Quiet.sweep m.act.session m.actor m.act.heldTokens m.act.heldIds
  have hnext : m.step.session.nextCallback = m.act.session.nextCallback := hsweep.nextCallback
  have hkept : (m.step.session.world.listed tok e).Sublist (m.act.session.world.listed tok e) :=
    hsweep.hooks.listed tok e
  rcases hhooks.listed tok e with hsub | ⟨hlisted, -, hlt⟩
  -- what is listed after the step was listed before it, so no hook is added
  · have hadds : m.adds e tok = [] := by
      refine List.filter_eq_nil_iff.2 fun c hc => ?_
      simp [hsub.subset hc]
    refine ⟨fun c hc => ?_, ?_, ?_⟩
    · rw [registrations_cons, hadds, List.append_nil] at hc
      rw [hnext]
      exact Nat.lt_of_lt_of_le (h.drawn c hc) hhooks.nextCallback
    · rw [registrations_cons, hadds, List.append_nil]
      exact h.nodup
    · rw [registrations_cons, hadds, List.append_nil]
      exact (hkept.trans hsub).trans h.listed
  · -- the new hook has just got its identity
    have hnew : (⟨m.session.nextCallback⟩ : CallbackId) ∉ registrations tok e past :=
      fun hin => Nat.lt_irrefl _ (h.drawn _ hin)
    have hadds : m.adds e tok = [⟨m.session.nextCallback⟩] := by
      have hold : (m.session.world.listed tok e).filter (· ∉ m.session.world.listed tok e) = [] :=
        List.filter_eq_nil_iff.2 fun c hc => by simp [hc]
      have hnot : (⟨m.session.nextCallback⟩ : CallbackId) ∉ m.session.world.listed tok e :=
        fun hin => hnew (h.listed.subset hin)
      unfold adds
      rw [hlisted, List.filter_append, hold, List.nil_append]
      simp [hnot]
    refine ⟨fun c hc => ?_, ?_, ?_⟩
    · rw [registrations_cons, hadds] at hc
      rw [hnext]
      rcases List.mem_append.1 hc with hc | hc
      · exact Nat.lt_trans (h.drawn c hc) hlt
      · obtain rfl := List.mem_singleton.1 hc
        exact hlt
    · rw [registrations_cons, hadds]
      refine List.nodup_append.2 ⟨h.nodup, List.nodup_singleton _, ?_⟩
      rintro a ha b hb rfl
      obtain rfl := List.mem_singleton.1 hb
      exact hnew ha
    · rw [registrations_cons, hadds]
      rw [hlisted] at hkept
      exact hkept.trans (h.listed.append (.refl _))

/-- The hooks that dispatches of one event of an instance have called and have yet to call. -/
structure Dispatching (past : List Machine) (m : Machine) (tok : Token) (id : InstanceId)
    (e : HookEvent) : Prop where
  called : calls e tok id past ++ m.toCall e tok id = hooksAtBegin e tok id past
  ordered : (hooksAtBegin e tok id past).Sublist (registrations tok e past)

/-- A step goes on with the dispatches of an event. -/
theorem dispatching_step (h : Dispatching past m tok id e) (hturn : DispatchTurn m)
    (ht : Tally (m :: past) m.step) (ho : InOrder past m tok e) :
    Dispatching (m :: past) m.step tok id e := by
  have hadd := hturn.calls_add e tok id
  have hcons : calls e tok id (m :: past) ++ m.step.toCall e tok id = calls e tok id past ++
      ((if m.begins e tok id then m.session.world.listed tok e else []) ++ m.toCall e tok id) := by
    rw [calls_cons, List.append_assoc]
    exact congrArg _ hadd
  cases hbegins : m.begins e tok id with
  | true =>
    -- no dispatch of the event has begun before
    have hnone : past.countP (·.begins e tok id) = 0 := by
      have hle := ht.begins_le e tok id
      have hone := ht.once tok id
      rw [countP_cons_toNat, hbegins, Bool.toNat_true] at hle
      omega
    have hpast := h.called
    rw [hooksAtBegin_of_none hnone, List.append_eq_nil_iff] at hpast
    rw [if_pos hbegins, hpast.1, hpast.2, List.append_nil, List.nil_append] at hcons
    refine ⟨hcons.trans (hooksAtBegin_of_begins hbegins).symm, ?_⟩
    rw [hooksAtBegin_of_begins hbegins, registrations_cons]
    exact ho.listed.trans (List.sublist_append_left _ _)
  | false =>
    rw [if_neg (Bool.eq_false_iff.1 hbegins), List.nil_append, h.called] at hcons
    refine ⟨hcons.trans (hooksAtBegin_of_not_begins hbegins).symm, ?_⟩
    rw [hooksAtBegin_of_not_begins hbegins, registrations_cons]
    exact h.ordered.trans (List.sublist_append_left _ _)

/-- At every point of a run the past tallies, and its dispatches are as they are to be. -/
theorem dispatching_of_history (hm : History orderly past m) : Tally past m ∧
    ∀ tok e, InOrder past m tok e ∧ ∀ id, Dispatching past m tok id e := by
  obtain ⟨files, environment, fieldCount, script, htrace⟩ := hm
  induction htrace with
  | start =>
    refine ⟨⟨fun _ _ h => (by cases h), fun _ _ => Nat.zero_le _, fun _ _ _ h => (by cases h),
      fun _ _ => Nat.le_refl 0, fun _ _ => rfl, fun _ _ => rfl⟩, fun tok e => ⟨?_, fun id => ?_⟩⟩
    · exact ⟨fun _ hc => absurd hc List.not_mem_nil, List.nodup_nil, List.nil_sublist _⟩
    · exact ⟨rfl, List.nil_sublist _⟩
  | step htrace hok ih =>
    obtain ⟨htally, hdispatches⟩ := ih
    have hreach : Reachable orderly _ := ⟨files, environment, fieldCount, script, htrace.run⟩
    have hturn := dispatchTurn_of_reachable hreach hok
    have htally' := tally_step htally hok (sound_of_reachable hreach) hturn
    refine ⟨htally', fun tok e => ?_⟩
    obtain ⟨horder, hdispatching⟩ := hdispatches tok e
    exact ⟨inOrder_step horder, fun id => dispatching_step (hdispatching id) hturn htally' horder⟩
  | redirect _ steps ih =>
    obtain ⟨htally, hdispatches⟩ := ih
    refine ⟨htally.redirect steps, fun tok e => ?_⟩
    obtain ⟨horder, hdispatching⟩ := hdispatches tok e
    refine ⟨⟨?_, horder.nodup, ?_⟩, fun id => ⟨?_, (hdispatching id).ordered⟩⟩
    · rw [session_redirect]
      exact horder.drawn
    · rw [session_redirect]
      exact horder.listed
    · unfold toCall
      rw [dispatches_redirect]
      exact (hdispatching id).called

/-- An instance is taken from its registry only by its destruction, or by the shutdown of its process. -/
theorem removes_of_history (hm : History orderly past m) {m' : Machine} (hmem : m' ∈ past)
    (hwithdraws : m'.withdraws tok id = true) : m'.Removes tok id := by
  obtain ⟨files, environment, fieldCount, script, htrace⟩ := hm
  induction htrace with
  | start => cases hmem
  | step htrace hok ih =>
    rcases List.mem_cons.1 hmem with rfl | hmem
    · have hreach : Reachable orderly m' := ⟨files, environment, fieldCount, script, htrace.run⟩
      exact (dispatchTurn_of_reachable hreach hok).removes_of_withdraws hwithdraws
    · exact ih hmem
  | redirect _ _ ih => exact ih hmem

/-! ## The dispatches of an instance -/

/-- What is dispatched for an instance in a process, up to a point of a run. -/
structure DispatchedOnce (past : List Machine) (m : Machine) (tok : Token) (id : InstanceId) :
    Prop where
  /-- The instance is registered once at most, with one process. -/
  once : past.countP (·.enrolls tok id) ≤ 1
  home : 0 < past.countP (·.enrolls tok id) →
    ∀ tok', 0 < past.countP (·.enrolls tok' id) → tok' = tok
  registered : m.session.world.registers tok id = true → past.countP (·.enrolls tok id) = 1
  /-- Its creation is dispatched as often as it is registered. -/
  created : past.countP (·.begins .created tok id) = past.countP (·.enrolls tok id)
  /-- It is removed once at most, by its destruction or by a shutdown. -/
  removed : past.countP (·.withdraws tok id) ≤ past.countP (·.enrolls tok id)
  removes : ∀ m' ∈ past, m'.withdraws tok id = true → m'.Removes tok id
  /-- Its destruction is dispatched as often as it is removed, or a shutdown has yet to come to it. -/
  destroyed : past.countP (·.begins .destroyed tok id) + m.waiting tok id =
    past.countP (·.withdraws tok id)
  /-- Of the hooks that there were when a dispatch began, each is called or still to be called. -/
  called : ∀ e, calls e tok id past ++ m.toCall e tok id = hooksAtBegin e tok id past
  /-- Hooks are called in the order of their registration, and none is called twice. -/
  ordered : ∀ e, (calls e tok id past).Sublist (registrations tok e past) ∧
    (calls e tok id past).Nodup
  /-- When all is done, nothing is left to be dispatched or called. -/
  settled : m.dispatches = [] →
    past.countP (·.begins .destroyed tok id) = past.countP (·.withdraws tok id) ∧
    ∀ e, calls e tok id past = hooksAtBegin e tok id past
  /-- Without a registration no hook is called. -/
  unregistered : past.countP (·.enrolls tok id) = 0 → ∀ e, calls e tok id past = []

/-- At every point of every run of orderly steps, whatever hooks do, the dispatches of every instance
and the calls of its hooks are as they are to be. -/
theorem hooks_dispatched_once (hm : History orderly past m) (tok : Token) (id : InstanceId) :
    DispatchedOnce past m tok id := by
  obtain ⟨htally, hdispatches⟩ := dispatching_of_history hm
  have hcalled : ∀ e, calls e tok id past ++ m.toCall e tok id = hooksAtBegin e tok id past :=
    fun e => ((hdispatches tok e).2 id).called
  -- what has been called is the first part of what was listed, and that is in order
  have hsofar : ∀ e, (calls e tok id past).Sublist (hooksAtBegin e tok id past) := by
    intro e
    rw [← hcalled e]
    exact List.sublist_append_left _ _
  have hordered : ∀ e, (calls e tok id past).Sublist (registrations tok e past) :=
    fun e => (hsofar e).trans ((hdispatches tok e).2 id).ordered
  have honce := htally.once tok id
  have hremoved := htally.removed tok id
  have hdestroyed := htally.destroyed tok id
  refine {
    once := honce
    home := fun hpos tok' hpos' => htally.home tok tok' id hpos hpos'
    registered := fun hreg => ?_
    created := htally.created tok id
    removed := by omega
    removes := fun m' hmem hwithdraws => removes_of_history hm hmem hwithdraws
    destroyed := hdestroyed.symm
    called := hcalled
    ordered := fun e => ⟨hordered e, (hordered e).nodup (hdispatches tok e).1.nodup⟩
    settled := fun hdone => ?_
    unregistered := fun hnone e => ?_ }
  · rw [hreg, Bool.toNat_true] at hremoved
    omega
  · have hwaiting : m.waiting tok id = 0 := by
      unfold waiting
      rw [hdone]
      rfl
    refine ⟨by omega, fun e => ?_⟩
    have htoCall : m.toCall e tok id = [] := by
      unfold toCall
      rw [hdone]
      rfl
    rw [← hcalled e, htoCall, List.append_nil]
  · have hbegins := htally.begins_le e tok id
    have hnever : past.countP (·.begins e tok id) = 0 := by omega
    have hsub := hsofar e
    rw [hooksAtBegin_of_none hnever] at hsub
    exact List.sublist_nil.1 hsub

/-- A program with two hooks for the creation of instances. The first one registers a third. -/
def hookedTwice : Machine :=
  start default default 0 [
    .call none (.start "p" none),
    .register none ⟨some "p", .created, none, "a", 1⟩
      [.register none ⟨some "p", .created, none, "c", 0⟩ []],
    .register none ⟨some "p", .created, none, "b", 0⟩ [],
    .call none (.process "p" (.create (some "i"))),
    .call none (.process "p" .shutdown)]

/-- The hook that was registered while the first one ran is listed behind the others by then, but is not
called for the same instance. -/
theorem third_not_called :
    (hookedTwice.run 11).session.world.listed ⟨1⟩ .created = [⟨0⟩, ⟨1⟩, ⟨2⟩] ∧
    calls .created ⟨1⟩ ⟨1⟩ (trail 11 hookedTwice []) = [⟨0⟩, ⟨1⟩] := by
  have hm : History orderly (trail 11 hookedTwice []) (hookedTwice.run 11) :=
    .of_run (by decide +kernel)
  have hlisted : hooksAtBegin .created ⟨1⟩ ⟨1⟩ (trail 11 hookedTwice []) = [⟨0⟩, ⟨1⟩] := by
    decide +kernel
  obtain ⟨-, hcalls⟩ := (hooks_dispatched_once hm ⟨1⟩ ⟨1⟩).settled (by decide +kernel)
  refine ⟨by decide +kernel, ?_⟩
  rw [hcalls, hlisted]

end TieredState.Machine
