import Mathlib.Algebra.GroupWithZero.Nat
import TieredState.Proofs.Accounts

/-!
# No instance is lost

However the calls of many threads to create, destroy and shut down are interleaved, every instance that
was registered is in the registry still, or one destruction has removed it, or the one shutdown has
drained it. That the account is right in every state comes by induction on how the state was reached.

* `Standing` — registries and lives agree but for what calls have taken out and not marked dead yet.
* `Identities` — each identity is drawn once, and registered at most once.
* `Ledger` — what has been begun with the instances of a process has ended, or a call is at it.
* `instances_conserved` — the account of a process in any state.
-/

namespace TieredState.Concurrent

open World

/-! ## The invariants -/

/-- Registries and lives agree, but for the instances that calls have taken out of a registry and not
marked dead yet. -/
structure Standing (s : State) : Prop where
  registry : RegistrySound s.world (s.stakes (fun _ => true) (·.out))
  able : ∀ c ∈ s.calls, c.Able
  -- A call takes instances out of the registry of its own process only.
  owned : ∀ c ∈ s.calls, ∀ id ∈ c.point.stake.out,
    (s.world.instances.get? id).map (·.owner) = some c.process
  -- The key of a process is released by a call that has shut the process down.
  closing : ∀ c ∈ s.calls, c.point.stake.swept ≠ [] → s.world.isShutDown c.process = true

/-- Each identity was drawn once, for one call, which may have registered an instance under it. -/
structure Identities (s : State) : Prop where
  distinct : s.drawn.Nodup
  below : ∀ id ∈ s.drawn, id.number < s.world.nextInstance
  -- A call keeps the identity that it has drawn until it registers an instance under it.
  counted : ∀ id,
    (s.stakes (fun _ => true) (·.fresh)).count id + s.enrolled.count id ≤ s.drawn.count id
  recorded : ∀ id, id ∉ s.enrolled → s.world.instances.get? id = none

/-- What calls have begun with the instances of a process has ended, or they are at it. -/
structure Ledger (s : State) (tok : Token) : Prop where
  -- Where the instances are,
  members : (s.registered tok).Perm
    (s.world.members tok ++ s.removed tok ++ (s.drained tok).flatten)
  -- and which of the calls that put them there or took them away have returned.
  created : (s.registered tok).Perm (s.created tok ++ s.stakes (· = tok) (·.created))
  destroyed : (s.removed tok).Perm (s.destroyed tok ++ s.stakes (· = tok) (·.destroyed))
  swept : ((s.drained tok).map List.length).Perm (s.counts tok ++ s.stakes (· = tok) (·.swept))
  phase : (s.drained tok).length = (s.world.isShutDown tok).toNat
  closed : ∀ later ids earlier, s.deeds (· = tok) = later ++ .drained ids :: earlier →
    ∀ id, .registered id ∉ later

section Invariants

variable {s : State} {before after : List Ongoing} {c : Ongoing} {a : Advance} {tok : Token}

/-- No instance has an identity that was drawn for a call and that the call has not registered. -/
theorem Identities.free (h : Identities s) (hc : c ∈ s.calls) {id : InstanceId}
    (hid : id ∈ c.point.stake.fresh) :
    s.world.instances.get? id = none ∧ id.number < s.world.nextInstance := by
  have hmem : id ∈ s.stakes (fun _ => true) (·.fresh) :=
    State.mem_stakes (q := fun _ => true) (f := fun st => st.fresh) hc rfl hid
  have hfresh := List.count_pos_iff.2 hmem
  have hcounted := h.counted id
  have honce := List.nodup_iff_count_le_one.1 h.distinct id
  exact ⟨h.recorded id (List.count_eq_zero.1 (by omega)), h.below id (List.count_pos_iff.1 (by omega))⟩

/-- A step of a call gives out no identity a second time. -/
theorem Identities.taken (h : Identities s) (hcalls : s.calls = before ++ c :: after)
    (hturn : Turn c s.world a) : Identities (s.taken before c after a) := by
  have hdrawn : (s.taken before c after a).drawn = a.told Deed.draws ++ s.drawn :=
    State.told_taken rfl _
  have henrolled : (s.taken before c after a).enrolled = a.told Deed.registers ++ s.enrolled :=
    State.told_taken rfl _
  have hnext := hturn.change.nextInstance
  refine ⟨?_, ?_, ?_, ?_⟩
  · rw [hdrawn]
    rcases hturn.draws_cases with hnone | ⟨hone, -⟩
    · rw [hnone]
      exact h.distinct
    · -- the number that is drawn is above all that were
      rw [hone]
      exact List.nodup_cons.2 ⟨fun hmem => Nat.lt_irrefl _ (h.below _ hmem), h.distinct⟩
  · intro id hid
    rw [hdrawn] at hid
    rcases List.mem_append.1 hid with hid | hid
    · rcases hturn.draws_cases with hnone | ⟨hone, hsucc⟩
      · rw [hnone] at hid
        cases hid
      · rw [hone] at hid
        obtain rfl := List.mem_singleton.1 hid
        exact hsucc ▸ Nat.lt_succ_self _
    · exact Nat.lt_of_lt_of_le (h.below id hid) hnext
  -- a number is given out once, or waits in a call that has not enrolled it yet
  · intro id
    obtain ⟨rest, hbefore, hafter⟩ := State.exists_rest hcalls (q := fun _ => true) rfl (·.fresh)
    have hthen := (hafter a).count_eq id
    have hnow := hbefore.count_eq id
    have hcounted := h.counted id
    have hfresh := hturn.fresh id
    rw [hdrawn, henrolled]
    rw [List.count_append] at hthen hnow ⊢
    rw [List.count_append]
    omega
  · intro id hid
    rw [henrolled, List.mem_append, not_or] at hid
    obtain ⟨hnot, hid⟩ := hid
    rcases hturn.change.owners id with hsame | ⟨hreg, -⟩
    · rw [h.recorded id hid, Option.map_none, Option.map_eq_none_iff] at hsame
      exact hsame
    · exact absurd hreg hnot

/-- A step of a call keeps registries and lives in agreement. -/
theorem Standing.taken (h : Standing s) (hids : Identities s)
    (hcalls : s.calls = before ++ c :: after) (hturn : Turn c s.world a) :
    Standing (s.taken before c after a) := by
  have hc : c ∈ s.calls := hcalls ▸ List.mem_append_right _ List.mem_cons_self
  -- whoever owns an instance goes on to own it, since the numbers of new ones are free
  have howned : ∀ id tok, (s.world.instances.get? id).map (·.owner) = some tok →
      (a.world.instances.get? id).map (·.owner) = some tok := by
    intro id tok hid
    rcases hturn.change.owners id with hsame | ⟨-, hfresh⟩
    · rw [hsame, hid]
    · rw [(hids.free hc hfresh).1] at hid
      cases hid
  refine ⟨?_, ?_, ?_, ?_⟩
  · obtain ⟨rest, hbefore, hafter⟩ := State.exists_rest hcalls (q := fun _ => true) rfl (·.out)
    exact (hturn.registry (h.registry.perm hbefore) (fun _ => hids.free hc) (h.closing c hc)).perm
      (hafter a).symm
  -- the other calls stay where they are, so only the call that has stepped is looked at
  · intro c' hc'
    rcases State.mem_calls_taken hcalls hc' with hc' | ⟨p, hp, rfl⟩
    · exact h.able c' hc'
    · exact hturn.able (h.able c hc) hp
  · intro c' hc' id hid
    rcases State.mem_calls_taken hcalls hc' with hc' | ⟨p, hp, rfl⟩
    · exact howned id _ (h.owned c' hc' id hid)
    · refine howned id _ ?_
      have hleft : id ∈ a.left (·.out) := by
        unfold Advance.left
        rw [hp]
        exact hid
      rcases hturn.out_cases hleft with hout | hmem
      · exact h.owned c hc id hout
      · obtain ⟨q, hq, hmem⟩ := mem_members.1 hmem
        obtain ⟨-, i, hi, howner, -⟩ := h.registry.member _ q id hq hmem
        rw [hi]
        exact congrArg some howner
  · intro c' hc' hswept
    rcases State.mem_calls_taken hcalls hc' with hc' | ⟨p, hp, rfl⟩
    · exact hturn.change.stays (h.closing c' hc' hswept)
    · have hleft : a.left (·.swept) ≠ [] := by
        unfold Advance.left
        rw [hp]
        exact hswept
      rcases hturn.swept_cases hleft with hbefore | hdown
      · exact hturn.change.stays (h.closing c hc hbefore)
      · exact hdown

/-- What a step begins and ends goes into the account, where the rest of the calls stand as before. -/
theorem perm_settled {α : Type} [DecidableEq α] {begun ended told told' stake left stakes stakes' rest :
    List α} (h : begun.Perm (ended ++ stakes)) (hstep : told ++ stake = told' ++ left)
    (hbefore : stakes.Perm (stake ++ rest)) (hafter : stakes'.Perm (left ++ rest)) :
    (told ++ begun).Perm (told' ++ ended ++ stakes') := by
  refine List.perm_iff_count.2 fun x => ?_
  have hx := h.count_eq x
  have hstepx := congrArg (List.count x) hstep
  have hbeforex := hbefore.count_eq x
  have hafterx := hafter.count_eq x
  simp only [List.count_append] at hx hstepx hbeforex hafterx ⊢
  omega

/-- A step of a call leaves the ledgers of other processes as they are. -/
theorem Ledger.taken_of_ne (h : Ledger s tok) (hcalls : s.calls = before ++ c :: after)
    (hturn : Turn c s.world a) (hne : tok ≠ c.process) : Ledger (s.taken before c after a) tok := by
  -- nothing was done for the process, and no call on it has moved
  have hq : decide (c.process = tok) = false := decide_eq_false (Ne.symm hne)
  have hdeeds : (s.taken before c after a).deeds (· = tok) = s.deeds (· = tok) :=
    State.deeds_taken_of_not (q := (· = tok)) hq
  have hstakes : ∀ {α : Type} (f : Stake → List α),
      (s.taken before c after a).stakes (· = tok) f = s.stakes (· = tok) f :=
    fun f => State.stakes_taken_of_not (q := (· = tok)) hcalls hq f
  obtain ⟨hmembers, hdown⟩ := hturn.change.others hne
  constructor
  · unfold State.registered State.removed State.drained
    rw [hdeeds]
    exact hmembers.symm ▸ h.members
  · unfold State.registered State.created
    rw [hdeeds, hstakes]
    exact h.created
  · unfold State.removed State.destroyed
    rw [hdeeds, hstakes]
    exact h.destroyed
  · unfold State.drained State.counts
    rw [hdeeds, hstakes]
    exact h.swept
  · unfold State.drained
    rw [hdeeds]
    exact hdown.symm ▸ h.phase
  · rw [hdeeds]
    exact h.closed

/-- Nothing is registered with a process that has been drained, since it is shut down. -/
theorem Ledger.closed_taken (h : Ledger s c.process) (hturn : Turn c s.world a)
    {later earlier : List Deed} {ids : List InstanceId}
    (heq : (s.taken before c after a).deeds (· = c.process) = later ++ .drained ids :: earlier)
    (id : InstanceId) : .registered id ∉ later := by
  intro hmem
  rw [State.deeds_taken (q := (· = c.process)) (decide_eq_true rfl)] at heq
  cases hdeed : a.deed? with
  | none =>
    rw [hdeed] at heq
    exact h.closed later ids earlier heq id hmem
  | some d =>
    rw [hdeed] at heq
    -- the deed is the latest one, so it is the first of those after the shutdown, or the shutdown
    cases later with
    | nil => cases hmem
    | cons e later =>
      obtain ⟨rfl, hrest⟩ := List.cons.inj heq
      change s.deeds (· = c.process) = later ++ .drained ids :: earlier at hrest
      rcases List.mem_cons.1 hmem with rfl | hmem
      · have hreg : a.told Deed.registers ≠ [] := by
          unfold Advance.told
          rw [hdeed]
          exact List.cons_ne_nil _ _
        have hdrained : ids ∈ s.drained c.process :=
          List.mem_flatMap.2 ⟨.drained ids, hrest ▸ List.mem_append_right _ List.mem_cons_self,
            List.mem_singleton_self ids⟩
        have hphase := h.phase
        rw [hturn.change.live hreg] at hphase
        exact absurd hdrained (List.eq_nil_of_length_eq_zero hphase ▸ List.not_mem_nil)
      · exact h.closed later ids earlier hrest id hmem

/-- A step of a call goes on with the ledger of its process. -/
theorem Ledger.taken_self (h : Ledger s c.process) (hst : Standing s) (hids : Identities s)
    (hcalls : s.calls = before ++ c :: after) (hturn : Turn c s.world a) :
    Ledger (s.taken before c after a) c.process := by
  have hc : c ∈ s.calls := hcalls ▸ List.mem_append_right _ List.mem_cons_self
  have hq : decide (c.process = c.process) = true := decide_eq_true rfl
  have hdeeds : ∀ {α : Type} (f : Deed → List α),
      ((s.taken before c after a).deeds (· = c.process)).flatMap f =
        a.told f ++ (s.deeds (· = c.process)).flatMap f :=
    fun f => State.told_taken (q := (· = c.process)) hq f
  have hsettles := hturn.settles
  have hchange := hturn.change
  constructor
  -- members, and those that joined and left, are counted one number at a time
  · have hstep := hchange.members hst.registry fun id hid => (hids.free hc hid).1
    refine List.perm_iff_count.2 fun x => ?_
    have hnow := h.members.count_eq x
    have hstepx := hstep.count_eq x
    unfold State.registered State.removed State.drained at hnow ⊢
    rw [hdeeds, hdeeds, hdeeds]
    simp only [List.count_append, List.flatten_append] at hnow hstepx ⊢
    show _ = List.count x (a.world.members c.process) + _ + _
    omega
  · obtain ⟨rest, hbefore, hafter⟩ := State.exists_rest hcalls (q := (· = c.process)) hq (·.created)
    unfold State.registered State.created
    rw [hdeeds, hdeeds]
    exact perm_settled h.created hsettles.created hbefore (hafter a)
  · obtain ⟨rest, hbefore, hafter⟩ := State.exists_rest hcalls (q := (· = c.process)) hq (·.destroyed)
    unfold State.removed State.destroyed
    rw [hdeeds, hdeeds]
    exact perm_settled h.destroyed hsettles.destroyed hbefore (hafter a)
  -- a drain is told by the list of what it took, the call by the count of it
  · obtain ⟨rest, hbefore, hafter⟩ := State.exists_rest hcalls (q := (· = c.process)) hq (·.swept)
    have hsizes : (a.told Deed.drains).map List.length = a.told (·.drains.map List.length) :=
      List.map_flatMap
    unfold State.drained State.counts
    rw [hdeeds, hdeeds, List.map_append, hsizes]
    exact perm_settled h.swept hsettles.swept hbefore (hafter a)
  · have hphase := hchange.phase
    unfold State.drained
    rw [hdeeds, List.length_append]
    have hnow := h.phase
    unfold State.drained at hnow
    show _ = (a.world.isShutDown c.process).toNat
    omega
  · exact fun _ _ _ heq id => h.closed_taken hturn heq id

/-! ## Every state -/

/-- What holds of every state. -/
structure Sound (s : State) : Prop where
  standing : Standing s
  identities : Identities s
  ledger : ∀ tok, Ledger s tok

theorem sound_empty : Sound {} where
  standing := ⟨registrySound_empty, nofun, nofun, nofun⟩
  identities := ⟨List.nodup_nil, nofun, fun _ => Nat.le_refl _, fun _ _ => rfl⟩
  ledger tok := by
    refine ⟨.refl _, .refl _, .refl _, .refl _, rfl, fun later ids earlier heq => ?_⟩
    exact absurd heq.symm (List.append_ne_nil_of_right_ne_nil _ (List.cons_ne_nil _ _))

namespace Sound

/-- A step of a call keeps the state sound. -/
theorem taken (h : Sound s) (hcalls : s.calls = before ++ c :: after) (hturn : Turn c s.world a) :
    Sound (s.taken before c after a) where
  standing := h.standing.taken h.identities hcalls hturn
  identities := h.identities.taken hcalls hturn
  ledger tok := by
    by_cases htok : tok = c.process
    · rw [htok]
      exact (h.ledger c.process).taken_self h.standing h.identities hcalls hturn
    · exact (h.ledger tok).taken_of_ne hcalls hturn htok

/-- A call that begins has done nothing yet. -/
theorem begin (h : Sound s) (t : ThreadId) (tok : Token) {p : Point} (hp : p.Opens) :
    Sound (s.begin t tok p) := by
  -- a call that only opens holds nothing, so all sums stay as they are
  have hstake : p.stake = {} := by cases hp <;> rfl
  have hstakes : ∀ {α : Type} (q : Token → Bool) (f : Stake → List α), f {} = [] →
      (s.begin t tok p).stakes q f = s.stakes q f := fun q f hf => State.stakes_begin hstake hf
  refine ⟨⟨?_, ?_, ?_, ?_⟩, ⟨h.identities.distinct, h.identities.below, ?_, h.identities.recorded⟩,
    fun tok' => ?_⟩
  · rw [hstakes _ _ rfl]
    exact h.standing.registry
  · intro c hc
    rcases List.mem_cons.1 hc with rfl | hc
    · refine ⟨by cases hp <;> rfl, fun hinside => ?_⟩
      simp [Point.Inside, hstake] at hinside
    · exact h.standing.able c hc
  · intro c hc id hid
    rcases List.mem_cons.1 hc with rfl | hc
    · rw [hstake] at hid
      cases hid
    · exact h.standing.owned c hc id hid
  · intro c hc hswept
    rcases List.mem_cons.1 hc with rfl | hc
    · rw [hstake] at hswept
      exact absurd rfl hswept
    · exact h.standing.closing c hc hswept
  · rw [hstakes _ _ rfl]
    exact h.identities.counted
  · have hledger := h.ledger tok'
    refine ⟨hledger.members, ?_, ?_, ?_, hledger.phase, hledger.closed⟩
    · rw [hstakes _ _ rfl]
      exact hledger.created
    · rw [hstakes _ _ rfl]
      exact hledger.destroyed
    · rw [hstakes _ _ rfl]
      exact hledger.swept

/-- The world changes otherwise than by a step of a call. -/
theorem still (h : Sound s) {w : World} (hstill : Still s.world w)
    (hregistry : RegistrySound w (s.stakes (fun _ => true) (·.out))) : Sound { s with world := w } := by
  refine ⟨⟨hregistry, h.standing.able, ?_, ?_⟩, ⟨h.identities.distinct, ?_, h.identities.counted, ?_⟩,
    fun tok => ?_⟩
  · intro c hc id hid
    exact (hstill.owners id).trans (h.standing.owned c hc id hid)
  · intro c hc hswept
    exact (hstill.isShutDown c.process).trans (h.standing.closing c hc hswept)
  · exact fun id hid => Nat.lt_of_lt_of_le (h.identities.below id hid) hstill.nextInstance
  · intro id hid
    have howners := hstill.owners id
    rw [h.identities.recorded id hid, Option.map_none, Option.map_eq_none_iff] at howners
    exact howners
  · have hledger := h.ledger tok
    refine ⟨?_, hledger.created, hledger.destroyed, hledger.swept, ?_, hledger.closed⟩
    · exact (hstill.members tok).symm ▸ hledger.members
    · exact hledger.phase.trans (congrArg Bool.toNat (hstill.isShutDown tok).symm)

/-- Whatever happens next keeps the state sound. -/
theorem step (h : Sound s) {s' : State} (hstep : Transition s s') : Sound s' := by
  cases hstep with
  | start config => exact h.still (.start h.standing.registry config) (h.standing.registry.start config)
  | begin t tok hp => exact h.begin t tok hp
  | advance n =>
    rcases s.advance_cases n with heq | ⟨before, c, after, hcalls, hheld, heq⟩
    · rw [heq]
      exact h
    · have hc : c ∈ s.calls := hcalls ▸ List.mem_append_right _ List.mem_cons_self
      rw [heq]
      exact h.taken hcalls (Ongoing.turn (h.standing.able c hc) hheld)
  | calm hcalm => exact h.still (.of_calm hcalm) (h.standing.registry.calm hcalm)
  | «local» hlocal => exact h.still (.of_local hlocal) (h.standing.registry.of_local hlocal)

end Sound

/-- Every state that there can be is sound. -/
theorem sound_of_reachable (h : Reachable s) : Sound s := by
  induction h with
  | empty => exact sound_empty
  | step _ hstep ih => exact ih.step hstep

end Invariants

/-! ## The account of a process -/

/-- What the calls on a process come to when none is under way. -/
structure Settled (s : State) (tok : Token) (p : Process) : Prop where
  created : (s.registered tok).Perm (s.created tok)
  destroyed : (s.removed tok).Perm (s.destroyed tok)
  shutDown : ((s.drained tok).map List.length).Perm (s.counts tok)
  living : p.registry.members.Perm (s.world.living tok)
  -- As many creations have returned an instance as there are instances alive, destructions that have
  -- returned, and instances that the shutdown told.
  balance : (s.created tok).length =
    (s.world.living tok).length + (s.destroyed tok).length + (s.counts tok).sum

/-- What has become of the instances of a process. -/
structure Conserved (s : State) (tok : Token) (p : Process) : Prop where
  -- No identity was drawn twice.
  distinct : s.drawn.Nodup
  -- No instance was registered twice, and each has an identity that was drawn.
  once : (s.registered tok).Nodup ∧ s.registered tok ⊆ s.drawn
  -- An instance is registered still, or a destruction has removed it, or a shutdown has drained it.
  split : (s.registered tok).Perm (p.registry.members ++ s.removed tok ++ (s.drained tok).flatten)
  single : (s.drained tok).length ≤ 1
  -- Nothing was registered after the shutdown has drained the registry.
  closed : ∀ later ids earlier, s.deeds (· = tok) = later ++ .drained ids :: earlier →
    ∀ id, .registered id ∉ later
  limited : p.maxInstances ≠ 0 → p.registry.size ≤ p.maxInstances
  settled : (∀ c ∈ s.calls, c.process ≠ tok) → Settled s tok p

variable {s : State} {tok : Token} {p : Process}

/-- Where no call is under way on a process, none has a stake. -/
theorem stakes_of_idle {α : Type} (hidle : ∀ c ∈ s.calls, c.process ≠ tok) (f : Stake → List α) :
    s.stakes (· = tok) f = [] := by
  have hnone : s.calls.filter (fun c => decide (c.process = tok)) = [] :=
    List.filter_eq_nil_iff.2 fun c hc => by simpa using hidle c hc
  unfold State.stakes
  rw [hnone]
  rfl

/-- When no call is under way, what lives is what is registered. -/
theorem living_perm (h : Standing s) (hp : s.world.processes.get? tok = some p)
    (hidle : ∀ c ∈ s.calls, c.process ≠ tok) : p.registry.members.Perm (s.world.living tok) := by
  refine (List.perm_ext_iff_of_nodup (h.registry.ascending tok p hp).nodup nodup_living).2 fun id => ?_
  rw [mem_living]
  constructor
  · intro hmem
    exact (h.registry.member tok p id hp hmem).2
  · rintro ⟨i, hi, rfl, halive⟩
    refine (h.registry.housed id i p hi halive hp).resolve_right fun hout => ?_
    -- what is taken out belongs to the process of the call that has taken it
    obtain ⟨c, hc, hid⟩ := List.mem_flatMap.1 hout
    have hcall := (List.mem_filter.1 hc).1
    have howner := h.owned c hcall id hid
    rw [hi] at howner
    exact hidle c hcall (Option.some.inj howner).symm

/-- The ledger of a process is settled when no call is under way on it. -/
theorem Ledger.settled (h : Ledger s tok) (hst : Standing s)
    (hp : s.world.processes.get? tok = some p) (hidle : ∀ c ∈ s.calls, c.process ≠ tok) :
    Settled s tok p := by
  have hcreated := h.created
  have hdestroyed := h.destroyed
  have hswept := h.swept
  rw [stakes_of_idle hidle, List.append_nil] at hcreated hdestroyed hswept
  have hliving := living_perm hst hp hidle
  refine ⟨hcreated, hdestroyed, hswept, hliving, ?_⟩
  calc (s.created tok).length
      = (s.world.members tok ++ s.removed tok ++ (s.drained tok).flatten).length :=
        (hcreated.symm.trans h.members).length_eq
    _ = (s.world.living tok).length + (s.destroyed tok).length + (s.counts tok).sum := by
        rw [members_eq hp, List.length_append, List.length_append, List.length_flatten,
          hliving.length_eq, hdestroyed.length_eq, hswept.sum_nat]

/-- However the calls of any number of threads are interleaved, at every point: no identity is drawn
twice; each instance that was registered is in the registry, or was removed by one destruction, or was
drained by the one shutdown, after which nothing is registered; the registry keeps to its limit; and
when no call is under way any more, as many creations have returned an instance as there are instances
alive, destructions that have returned, and instances that the shutdown told. -/
theorem instances_conserved (h : Reachable s) (hp : s.world.processes.get? tok = some p) :
    Conserved s tok p := by
  obtain ⟨hstanding, hids, hledger⟩ := sound_of_reachable h
  have hledger := hledger tok
  have honce : ∀ id, s.enrolled.count id ≤ s.drawn.count id := fun id =>
    Nat.le_trans (Nat.le_add_left _ _) (hids.counted id)
  have henrolled : s.enrolled.Nodup := List.nodup_iff_count_le_one.2 fun id =>
    Nat.le_trans (honce id) (List.nodup_iff_count_le_one.1 hids.distinct id)
  refine {
    distinct := hids.distinct
    once := ⟨henrolled.sublist (s.registered_sublist tok), fun id hid => ?_⟩
    split := members_eq hp ▸ hledger.members
    single := ?_
    closed := hledger.closed
    limited := hstanding.registry.limited tok p hp
    settled := hledger.settled hstanding hp }
  · have hmem := List.count_pos_iff.2 ((s.registered_sublist tok).subset hid)
    exact List.count_pos_iff.1 (Nat.lt_of_lt_of_le hmem (honce id))
  · -- the registry is drained when the process is shut down, which happens once
    rw [hledger.phase]
    exact Bool.toNat_le _

/-- Two instances are created. Then one thread is about to register a third one while another destroys
the first and yet another shuts the process down. -/
def racing : State :=
  let s : State := { world := (({} : World).start {}).2 }
  let s := (s.begin .main ⟨1⟩ (.create none)).schedule [0, 0, 0, 0, 0]
  let s := (s.begin .main ⟨1⟩ (.create none)).schedule [0, 0, 0, 0, 0]
  let s := (s.begin (.worker "a") ⟨1⟩ (.create none)).schedule [0, 0]
  let s := s.begin (.worker "b") ⟨1⟩ .shutdown
  let s := s.begin .main ⟨1⟩ (.destroy ⟨1⟩)
  s.schedule [0, 0, 1, 2, 1, 0, 0, 1, 0, 0]

/-- The race can come about. -/
theorem racing_reachable : Reachable racing := by
  have hstart : Reachable { world := (({} : World).start {}).2 } := .step .empty (.start {} {})
  have hfirst := (hstart.begin .main ⟨1⟩ .create).schedule [0, 0, 0, 0, 0]
  have hsecond := (hfirst.begin .main ⟨1⟩ .create).schedule [0, 0, 0, 0, 0]
  have hthird := (hsecond.begin (.worker "a") ⟨1⟩ .create).schedule [0, 0]
  have hall := (hthird.begin (.worker "b") ⟨1⟩ .shutdown).begin .main ⟨1⟩ (.destroy ⟨1⟩)
  exact hall.schedule [0, 0, 1, 2, 1, 0, 0, 1, 0, 0]

/-- The third one is refused, and the other two are accounted for. -/
theorem racing_conserved : racing.drawn = [⟨3⟩, ⟨2⟩, ⟨1⟩] ∧ racing.removed ⟨1⟩ = [⟨1⟩] ∧
    racing.drained ⟨1⟩ = [[⟨2⟩]] ∧ (racing.registered ⟨1⟩).Perm [⟨1⟩, ⟨2⟩] ∧
    (racing.created ⟨1⟩).length = (racing.world.living ⟨1⟩).length + 1 + 1 := by
  have hmembers : (racing.world.processes.get? ⟨1⟩).map (·.registry.members) = some [] := by
    decide +kernel
  obtain ⟨p, hp, hmembers⟩ := Option.map_eq_some_iff.1 hmembers
  have hcalls : racing.calls = [] := by decide +kernel
  have hdrawn : racing.drawn = [⟨3⟩, ⟨2⟩, ⟨1⟩] := by decide +kernel
  have hremoved : racing.removed ⟨1⟩ = [⟨1⟩] := by decide +kernel
  have hdrained : racing.drained ⟨1⟩ = [[⟨2⟩]] := by decide +kernel
  have hdestroyed : racing.destroyed ⟨1⟩ = [⟨1⟩] := by decide +kernel
  have hcounts : racing.counts ⟨1⟩ = [1] := by decide +kernel
  have hconserved := instances_conserved racing_reachable hp
  have hsplit := hconserved.split
  have hidle : ∀ c ∈ racing.calls, c.process ≠ ⟨1⟩ := by
    rw [hcalls]
    exact fun _ hc => absurd hc List.not_mem_nil
  have hbalance := (hconserved.settled hidle).balance
  rw [hmembers, hremoved, hdrained] at hsplit
  rw [hdestroyed, hcounts] at hbalance
  exact ⟨hdrawn, hremoved, hdrained, hsplit, hbalance⟩

end TieredState.Concurrent
