import Mathlib.Data.List.Nodup
import TieredState.Proofs.Threads

/-!
# Registries and lives

An instance is registered and alive, or it is neither, but for a stretch in between: an operation
that destroys takes it out of the registry first, then runs hooks, and marks it dead only when they
have run. `RegistrySound w out` says what holds of registries and lives at any point, `out` being
the instances within such a stretch: they are alive, and every other live instance is registered
with its owner, as long as that process exists.

* `RegistrySound.enroll`, `withdraw`, `beginShutdown`, `mark` — creation registers, destruction and
  shutdown move instances from the registry to `out`, marking takes them away.
* `RegistrySound.forget` — processes may go.
-/

namespace TieredState

/-! ## Members in ascending order -/

namespace Registry

variable {id m : InstanceId} {ms : List InstanceId}

/-- The members stand in the order of their creation. -/
def Ascending (ms : List InstanceId) : Prop := ms.Pairwise fun a b => a.number < b.number

/-- Members in the order of their creation are all different. -/
theorem Ascending.nodup (h : Ascending ms) : ms.Nodup := by
  refine List.Pairwise.imp ?_ h
  rintro a _ hlt rfl
  exact Nat.lt_irrefl _ hlt

/-- Insertion adds one member and keeps the others. -/
theorem mem_insertAscending : m ∈ insertAscending id ms ↔ m = id ∨ m ∈ ms := by
  induction ms with
  | nil => simp [insertAscending]
  | cons a ms ih =>
    unfold insertAscending
    split
    · rw [List.mem_cons, ih, List.mem_cons]
      exact or_left_comm
    · split
      · next heq =>
        rw [List.mem_cons, heq]
        simp
      · rw [List.mem_cons]

/-- Up to their order, the members are those from before and the new one. -/
theorem perm_insertAscending (h : id ∉ ms) : (insertAscending id ms).Perm (id :: ms) := by
  induction ms with
  | nil => exact .refl _
  | cons a ms ih =>
    rw [List.mem_cons, not_or] at h
    obtain ⟨hne, hout⟩ := h
    unfold insertAscending
    split
    · exact ((ih hout).cons a).trans (.swap id a ms)
    · rw [if_neg fun heq => hne heq.symm]

/-- Insertion makes a list longer by one at most. -/
theorem length_insertAscending_le : (insertAscending id ms).length ≤ ms.length + 1 := by
  induction ms with
  | nil => simp [insertAscending]
  | cons a ms ih =>
    unfold insertAscending
    split
    · rw [List.length_cons, List.length_cons]
      omega
    · split
      · omega
      · exact Nat.le_refl _

/-- Insertion keeps the order of creation. -/
theorem Ascending.insert (h : Ascending ms) : Ascending (insertAscending id ms) := by
  induction ms with
  | nil => exact List.pairwise_singleton _ _
  | cons a ms ih =>
    obtain ⟨hhead, htail⟩ := List.pairwise_cons.1 h
    unfold insertAscending
    -- a larger number has its place further on, and a smaller one in front
    split
    · next hlt =>
      refine List.pairwise_cons.2 ⟨?_, ih htail⟩
      intro m hm
      rcases mem_insertAscending.1 hm with rfl | hm
      · exact hlt
      · exact hhead m hm
    · next hge =>
      split
      · exact h
      · next hne =>
        have hlt : id.number < a.number := by
          have hnum : a.number ≠ id.number := fun heq => hne (by cases a; cases id; simp_all)
          omega
        refine List.pairwise_cons.2 ⟨?_, h⟩
        intro m hm
        rcases List.mem_cons.1 hm with rfl | hm
        · exact hlt
        · exact Nat.lt_trans hlt (hhead m hm)

end Registry

namespace World

variable {w w' : World} {t : ThreadId} {tok : Token} {id : InstanceId} {out : List InstanceId}

/-! ## What the operations on registries do -/

/-- Whether the instance is in the registry of the process. -/
def registers (w : World) (tok : Token) (id : InstanceId) : Bool :=
  (w.processes.get? tok).any (·.registry.contains id)

/-- An instance is registered if it is a member of the registry of a process that there is. -/
theorem registers_iff : w.registers tok id = true ↔
    ∃ p, w.processes.get? tok = some p ∧ id ∈ p.registry.members := by
  unfold registers
  rw [Option.any_eq_true]
  simp only [Registry.contains, List.contains_iff_mem]

/-- A process is live if there is one and it is not shut down. -/
theorem live_ok {p : Process} :
    w.live tok = .ok p ↔ w.processes.get? tok = some p ∧ p.phase ≠ .shutDown := by
  unfold live
  cases w.processes.get? tok with
  | none => simp
  | some q =>
    by_cases hq : q.phase = .shutDown
    · simp only [hq, ↓reduceIte, reduceCtorEq, Option.some.injEq, false_iff, not_and, ne_eq, not_not]
      rintro rfl
      exact hq
    · simp only [hq, ↓reduceIte, Except.ok.injEq, Option.some.injEq]
      constructor
      · rintro rfl
        exact ⟨rfl, hq⟩
      · exact fun h => h.1

/-- The owner of an instance that exists is the process that it was made by. -/
theorem checkOwner_ok {u : Unit} :
    w.checkOwner tok id = .ok u ↔ ∃ i, w.instances.get? id = some i ∧ i.owner = tok := by
  unfold checkOwner
  cases w.instances.get? id <;> simp

/-- The check of an instance passes exactly when it is live. -/
theorem checkAlive_ok {u : Unit} : w.checkAlive id = .ok u ↔ w.isLive id = true := by
  unfold checkAlive
  cases w.isLive id <;> simp

/-- The world with one more identity used up. -/
def draw (w : World) : World := { w with nextInstance := w.nextInstance + 1 }

/-- The world with an instance registered under an identity that was drawn for it. -/
def registered (w : World) (tok : Token) (parent? : Option InstanceId) (id : InstanceId) : World :=
  { w.modifyProcess tok (·.register id) with
    instances := w.instances.insert id { parent?, owner := tok } }

/-- The world with a new instance registered. -/
def enrolled (w : World) (tok : Token) (parent? : Option InstanceId) : World :=
  { w.draw.modifyProcess tok (·.register ⟨w.nextInstance⟩) with
    instances := w.instances.insert ⟨w.nextInstance⟩ { parent?, owner := tok } }

/-- To start a process adds it under the next token and leaves the others alone. -/
theorem get?_start (w : World) (c : Config) (tok : Token) : (w.start c).2.processes.get? tok =
    if tok = ⟨w.nextToken⟩ then some (.ofConfig c) else w.processes.get? tok :=
  Table.get?_insert _ _ _ _

/-- A registered instance is found with its parent and its owner, and the others as they were. -/
theorem get?_registered (w : World) (tok : Token) (parent? : Option InstanceId)
    (new id : InstanceId) : (w.registered tok parent? new).instances.get? id =
      if id = new then some { parent?, owner := tok } else w.instances.get? id :=
  Table.get?_insert _ _ _ _

/-- Of all processes only the one that registers the instance is changed. -/
theorem get?_registered_eq_some {parent? : Option InstanceId} {tok' : Token} {p' : Process} :
    (w.registered tok parent? id).processes.get? tok' = some p' ↔
      (tok' = tok ∧ ∃ p, w.processes.get? tok = some p ∧ p' = p.register id) ∨
        (tok' ≠ tok ∧ w.processes.get? tok' = some p') :=
  get?_modifyProcess_eq_some _ _ _

/-- The instance that is registered next gets the next identity, and the others stay as they were.
-/
theorem get?_enrolled (w : World) (tok : Token) (parent? : Option InstanceId) (id : InstanceId) :
    (w.enrolled tok parent?).instances.get? id =
      if id = ⟨w.nextInstance⟩ then some { parent?, owner := tok } else w.instances.get? id :=
  Table.get?_insert _ _ _ _

/-- The process that registers a new instance gets it as a member, and no other process changes. -/
theorem get?_enrolled_eq_some {parent? : Option InstanceId} {tok' : Token} {p' : Process} :
    (w.enrolled tok parent?).processes.get? tok' = some p' ↔
      (tok' = tok ∧ ∃ p, w.processes.get? tok = some p ∧ p' = p.register ⟨w.nextInstance⟩) ∨
        (tok' ≠ tok ∧ w.processes.get? tok' = some p') :=
  get?_modifyProcess_eq_some _ _ _

/-- A creation is refused, at the cost of an identity at most, or registers the new instance. -/
theorem enroll_cases (w : World) (t : ThreadId) (tok : Token) (parent? : Option InstanceId) :
    (∃ e, w.enroll t tok parent? = (.error e, w)) ∨
    (∃ e, w.enroll t tok parent? = (.error e, w.draw)) ∨
    ∃ p, w.live tok = .ok p ∧ (p.maxInstances ≠ 0 → p.registry.size < p.maxInstances) ∧
      w.enroll t tok parent? = (.ok ⟨w.nextInstance⟩, w.enrolled tok parent?) := by
  unfold enroll
  cases hp : w.live tok with
  | error e => exact .inl ⟨e, rfl⟩
  | ok p =>
    dsimp only
    split
    · next e _ => exact .inr (.inl ⟨e, rfl⟩)
    · split
      · exact .inr (.inl ⟨_, rfl⟩)
      · exact .inr (.inr ⟨p, rfl, by omega, rfl⟩)

/-- The process without an instance in its registry. -/
def withdrawn (id : InstanceId) (p : Process) : Process :=
  { p with registry := p.registry.remove id }

/-- An instance is only taken from the registry of its owner, which is live and has it as a member.
-/
theorem withdraw_ok (h : w.withdraw t tok id = .ok w') :
    ∃ p, w.live tok = .ok p ∧ (∃ i, w.instances.get? id = some i ∧ i.owner = tok) ∧
      id ∈ p.registry.members ∧ w' = w.modifyProcess tok (withdrawn id) := by
  obtain ⟨p, hp, h⟩ := bind_eq_ok.1 h
  obtain ⟨u, howner, h⟩ := bind_eq_ok.1 h
  obtain ⟨_, -, h⟩ := bind_eq_ok.1 h
  split at h
  · next hmem =>
    exact ⟨p, hp, checkOwner_ok.1 howner, List.contains_iff_mem.1 hmem, (Except.ok.inj h).symm⟩
  · cases h

/-- The process shut down, with what is left of a registry. -/
def drained (r : Registry) (p : Process) : Process :=
  { p with phase := .shutDown, registry := r.drain.2 }

/-- A shutdown takes all members from the registry at once, to end them in the opposite order of
their creation. -/
theorem beginShutdown_ok {ids : List InstanceId} (h : w.beginShutdown t tok = .ok (ids, w')) :
    ∃ p, w.live tok = .ok p ∧ ids = p.registry.members.reverse ∧
      w' = w.modifyProcess tok (drained p.registry) := by
  obtain ⟨_, -, h⟩ := bind_eq_ok.1 h
  obtain ⟨p, hp, h⟩ := bind_eq_ok.1 h
  obtain ⟨rfl, rfl⟩ := Prod.mk.inj (Except.ok.inj h)
  exact ⟨p, hp, rfl, rfl⟩

/-! ## The invariant -/

/-- Registries and lives agree, but for the instances `out` that are taken out of a registry and
not yet marked dead. -/
structure RegistrySound (w : World) (out : List InstanceId) : Prop where
  member : ∀ tok p id, w.processes.get? tok = some p → id ∈ p.registry.members →
    id ∉ out ∧ ∃ i, w.instances.get? id = some i ∧ i.owner = tok ∧ i.alive = true
  ascending : ∀ tok p, w.processes.get? tok = some p → Registry.Ascending p.registry.members
  limited : ∀ tok p, w.processes.get? tok = some p → p.maxInstances ≠ 0 →
    p.registry.size ≤ p.maxInstances
  outLive : ∀ id ∈ out, w.isLive id = true
  outNodup : out.Nodup
  housed : ∀ id i p, w.instances.get? id = some i → i.alive = true →
    w.processes.get? i.owner = some p → id ∈ p.registry.members ∨ id ∈ out
  instanceDrawn : ∀ id i, w.instances.get? id = some i →
    id.number < w.nextInstance ∧ i.owner.number < w.nextToken
  tokenDrawn : ∀ tok p, w.processes.get? tok = some p → tok.number < w.nextToken
  released : ∀ tok p, w.processes.get? tok = some p → p.released = true → p.phase = .shutDown

theorem registrySound_empty : RegistrySound {} [] where
  member _ _ _ h := by cases h
  ascending _ _ h := by cases h
  limited _ _ h := by cases h
  outLive _ h := by cases h
  outNodup := List.nodup_nil
  housed _ _ _ h := by cases h
  instanceDrawn _ _ h := by cases h
  tokenDrawn _ _ h := by cases h
  released _ _ h := by cases h

namespace RegistrySound

/-- Members of a registry are live. -/
theorem live_of_member (h : RegistrySound w out) {p : Process}
    (hp : w.processes.get? tok = some p) (hid : id ∈ p.registry.members) : w.isLive id = true := by
  obtain ⟨-, i, hi, -, halive⟩ := h.member tok p id hp hid
  exact isLive_iff.2 ⟨i, hi, halive⟩

/-- It does not matter in which order the instances are that are out. -/
theorem perm (h : RegistrySound w out) {out' : List InstanceId} (hperm : out.Perm out') :
    RegistrySound w out' :=
  { h with
    member := fun tok p id hp hid =>
      ⟨fun hout => (h.member tok p id hp hid).1 (hperm.mem_iff.2 hout), (h.member tok p id hp hid).2⟩
    outLive := fun id hid => h.outLive id (hperm.mem_iff.2 hid)
    outNodup := hperm.nodup_iff.1 h.outNodup
    housed := fun id i p hi halive hp =>
      (h.housed id i p hi halive hp).imp_right hperm.mem_iff.1 }

/-- Whatever is live has got its identity already. -/
theorem drawn_of_live (h : RegistrySound w out) (hlive : w.isLive id = true) :
    id.number < w.nextInstance := by
  obtain ⟨i, hi, -⟩ := isLive_iff.1 hlive
  exact (h.instanceDrawn id i hi).1

/-- The key of a live process is not released. -/
theorem not_released (h : RegistrySound w out) {p : Process} (hp : w.live tok = .ok p) :
    w.isReleased tok = false := by
  obtain ⟨hget, hphase⟩ := live_ok.1 hp
  unfold isReleased
  rw [hget]
  exact Bool.eq_false_iff.2 fun hrel => hphase (h.released tok p hget hrel)

theorem calm (h : RegistrySound w out) (hc : Calm w w') : RegistrySound w' out where
  -- processes and instances of the new world are those of the old one, in all that counts here
  member tok p' id hp' hid := by
    obtain ⟨p, hp, -, -, hreg, -⟩ := hc.process_of hp'
    obtain ⟨hout, i, hi, howner, halive⟩ := h.member tok p id hp (hreg ▸ hid)
    obtain ⟨i', hi', ho', -, ha'⟩ := hc.symm.instance_of hi
    exact ⟨hout, i', hi', ho'.trans howner, ha'.trans halive⟩
  ascending tok p' hp' := by
    obtain ⟨p, hp, -, -, hreg, -⟩ := hc.process_of hp'
    exact hreg ▸ h.ascending tok p hp
  limited tok p' hp' := by
    obtain ⟨p, hp, -, hmax, hreg, -⟩ := hc.process_of hp'
    exact hreg ▸ hmax ▸ h.limited tok p hp
  outLive id hid := by
    rw [hc.isLive]
    exact h.outLive id hid
  outNodup := h.outNodup
  housed id i' p' hi' halive hp' := by
    obtain ⟨i, hi, howner, -, ha⟩ := hc.instance_of hi'
    obtain ⟨p, hp, -, -, hreg, -⟩ := hc.process_of hp'
    exact hreg ▸ h.housed id i p hi (ha.trans halive) (howner ▸ hp)
  instanceDrawn id i' hi' := by
    obtain ⟨i, hi, howner, -, -⟩ := hc.instance_of hi'
    rw [hc.nextInstance, hc.nextToken, ← howner]
    exact h.instanceDrawn id i hi
  tokenDrawn tok p' hp' := by
    obtain ⟨p, hp, -⟩ := hc.process_of hp'
    rw [hc.nextToken]
    exact h.tokenDrawn tok p hp
  released tok p' hp' hrel := by
    obtain ⟨p, hp, hphase, -, -, hr⟩ := hc.process_of hp'
    exact hphase ▸ h.released tok p hp (hr.trans hrel)

/-- What one thread keeps does not matter. -/
theorem of_local (h : RegistrySound w out) (hl : Local t w w') : RegistrySound w' out where
  member := by
    rw [hl.processes, hl.instances]
    exact h.member
  ascending := by
    rw [hl.processes]
    exact h.ascending
  limited := by
    rw [hl.processes]
    exact h.limited
  outLive id hid := by
    rw [hl.isLive]
    exact h.outLive id hid
  outNodup := h.outNodup
  housed := by
    rw [hl.processes, hl.instances]
    exact h.housed
  instanceDrawn := by
    rw [hl.instances, hl.nextInstance, hl.nextToken]
    exact h.instanceDrawn
  tokenDrawn := by
    rw [hl.processes, hl.nextToken]
    exact h.tokenDrawn
  released := by
    rw [hl.processes]
    exact h.released

/-! ## Processes start -/

/-- A process begins with an empty registry, so registries and lives go on to agree. -/
theorem start (h : RegistrySound w out) (c : Config) : RegistrySound (w.start c).2 out := by
  have hget : ∀ tok p, (w.start c).2.processes.get? tok = some p →
      (tok = ⟨w.nextToken⟩ ∧ p = .ofConfig c) ∨ w.processes.get? tok = some p := by
    intro tok p hp
    rw [get?_start] at hp
    split at hp
    · next heq => exact .inl ⟨heq, (Option.some.inj hp).symm⟩
    · exact .inr hp
  -- each clause is one of the old world, or is about the new process
  refine ⟨?_, ?_, ?_, h.outLive, h.outNodup, ?_, ?_, ?_, ?_⟩
  · -- the new process has no members
    intro tok p id hp hid
    rcases hget tok p hp with ⟨-, rfl⟩ | hp
    · cases hid
    · exact h.member tok p id hp hid
  · intro tok p hp
    rcases hget tok p hp with ⟨-, rfl⟩ | hp
    · exact List.Pairwise.nil
    · exact h.ascending tok p hp
  · intro tok p hp hmax
    rcases hget tok p hp with ⟨-, rfl⟩ | hp
    · exact Nat.zero_le _
    · exact h.limited tok p hp hmax
  · intro id i p hi halive hp
    rcases hget i.owner p hp with ⟨hnew, -⟩ | hp
    · -- an instance that exists was created under a token drawn before
      have hlt := (h.instanceDrawn id i hi).2
      rw [hnew] at hlt
      exact absurd hlt (Nat.lt_irrefl _)
    · exact h.housed id i p hi halive hp
  · intro id i hi
    obtain ⟨hid, hown⟩ := h.instanceDrawn id i hi
    exact ⟨hid, Nat.lt_succ_of_lt hown⟩
  · intro tok p hp
    rcases hget tok p hp with ⟨rfl, -⟩ | hp
    · exact Nat.lt_succ_self _
    · exact Nat.lt_succ_of_lt (h.tokenDrawn tok p hp)
  · intro tok p hp hrel
    rcases hget tok p hp with ⟨-, rfl⟩ | hp
    · cases hrel
    · exact h.released tok p hp hrel

/-! ## Creation -/

theorem draw (h : RegistrySound w out) : RegistrySound w.draw out :=
  { h with
    outLive := h.outLive
    instanceDrawn := fun id i hi =>
      ⟨Nat.lt_succ_of_lt (h.instanceDrawn id i hi).1, (h.instanceDrawn id i hi).2⟩ }

/-- An instance is registered under an identity that was drawn for it and that no instance has. -/
theorem registered (h : RegistrySound w out) {p : Process} (hp : w.live tok = .ok p)
    (hroom : p.maxInstances ≠ 0 → p.registry.size < p.maxInstances) (parent? : Option InstanceId)
    {new : InstanceId} (hdrawn : new.number < w.nextInstance)
    (hfree : w.instances.get? new = none) : RegistrySound (w.registered tok parent? new) out := by
  obtain ⟨hget, hphase⟩ := live_ok.1 hp
  have hnew : ∀ id i, w.instances.get? id = some i → id ≠ new := by
    rintro id i hi rfl
    rw [hfree] at hi
    cases hi
  have hold : ∀ id i, w.instances.get? id = some i →
      (w.registered tok parent? new).instances.get? id = some i := by
    intro id i hi
    rw [get?_registered, if_neg (hnew id i hi), hi]
  have hproc : ∀ tok' p', (w.registered tok parent? new).processes.get? tok' = some p' →
      (tok' = tok ∧ p' = p.register new) ∨
        (tok' ≠ tok ∧ w.processes.get? tok' = some p') := by
    intro tok' p' hp'
    refine (get?_registered_eq_some.1 hp').imp_left ?_
    rintro ⟨htok, q, hq, rfl⟩
    rw [hget] at hq
    exact ⟨htok, Option.some.inj hq ▸ rfl⟩
  have hmem : ∀ m, m ∈ (p.register new).registry.members ↔ m = new ∨ m ∈ p.registry.members :=
    fun m => Registry.mem_insertAscending
  have hlive : ∀ id, w.isLive id = true → (w.registered tok parent? new).isLive id = true := by
    intro id hid
    obtain ⟨i, hi, halive⟩ := isLive_iff.1 hid
    exact isLive_iff.2 ⟨i, hold id i hi, halive⟩
  refine ⟨?_, ?_, ?_, fun id hid => hlive id (h.outLive id hid), h.outNodup, ?_, ?_, ?_, ?_⟩
  · -- members: the new one is alive, and the old ones are what they were
    intro tok' p' id hp' hid
    have hkeep : ∀ q, w.processes.get? tok' = some q → id ∈ q.registry.members → id ∉ out ∧
        ∃ i, (w.registered tok parent? new).instances.get? id = some i ∧ i.owner = tok' ∧
          i.alive = true := by
      intro q hq hidq
      obtain ⟨hout, i, hi, howner, halive⟩ := h.member tok' q id hq hidq
      exact ⟨hout, i, hold id i hi, howner, halive⟩
    rcases hproc tok' p' hp' with ⟨rfl, rfl⟩ | ⟨-, hp'⟩
    · rcases (hmem id).1 hid with rfl | hid
      · refine ⟨fun hout => ?_, _, by rw [get?_registered, if_pos rfl], rfl, rfl⟩
        obtain ⟨i, hi, -⟩ := isLive_iff.1 (h.outLive _ hout)
        exact hnew _ i hi rfl
      · exact hkeep p hget hid
    · exact hkeep p' hp' hid
  · intro tok' p' hp'
    rcases hproc tok' p' hp' with ⟨rfl, rfl⟩ | ⟨-, hp'⟩
    · exact (h.ascending _ p hget).insert
    · exact h.ascending tok' p' hp'
  · intro tok' p' hp' hmax
    rcases hproc tok' p' hp' with ⟨rfl, rfl⟩ | ⟨-, hp'⟩
    · exact Nat.le_trans Registry.length_insertAscending_le (hroom hmax)
    · exact h.limited tok' p' hp' hmax
  · -- the new instance is housed in its registry
    intro id i p' hi halive hp'
    rw [get?_registered] at hi
    split at hi
    · next heq =>
      obtain rfl := Option.some.inj hi
      rcases hproc tok p' hp' with ⟨-, rfl⟩ | ⟨hne, -⟩
      · exact .inl ((hmem id).2 (.inl heq))
      · exact absurd rfl hne
    · rcases hproc i.owner p' hp' with ⟨heq, rfl⟩ | ⟨-, hp'⟩
      · rcases h.housed id i p hi halive (heq ▸ hget) with hid | hid
        · exact .inl ((hmem id).2 (.inr hid))
        · exact .inr hid
      · exact h.housed id i p' hi halive hp'
  · intro id i hi
    rw [get?_registered] at hi
    split at hi
    · next heq =>
      obtain rfl := Option.some.inj hi
      rw [heq]
      exact ⟨hdrawn, h.tokenDrawn tok p hget⟩
    · exact h.instanceDrawn id i hi
  · intro tok' p' hp'
    rcases hproc tok' p' hp' with ⟨rfl, -⟩ | ⟨-, hp'⟩
    · exact h.tokenDrawn _ p hget
    · exact h.tokenDrawn tok' p' hp'
  · intro tok' p' hp' hrel
    rcases hproc tok' p' hp' with ⟨rfl, rfl⟩ | ⟨-, hp'⟩
    · exact absurd (h.released _ p hget hrel) hphase
    · exact h.released tok' p' hp' hrel

/-- A new instance is live and registered with its owner, where there is room for it. -/
theorem enrolled (h : RegistrySound w out) {p : Process} (hp : w.live tok = .ok p)
    (hroom : p.maxInstances ≠ 0 → p.registry.size < p.maxInstances) (parent? : Option InstanceId) :
    RegistrySound (w.enrolled tok parent?) out := by
  -- the identity was not drawn before, so nothing that exists has it
  have hfree : w.draw.instances.get? ⟨w.nextInstance⟩ = none := by
    refine Option.eq_none_iff_forall_ne_some.2 fun i hi => ?_
    exact Nat.lt_irrefl _ (h.instanceDrawn _ i hi).1
  exact h.draw.registered hp hroom parent? (Nat.lt_succ_self _) hfree

theorem enroll (h : RegistrySound w out) (t : ThreadId) (tok : Token) (parent? : Option InstanceId) :
    RegistrySound (w.enroll t tok parent?).2 out := by
  rcases enroll_cases w t tok parent? with ⟨e, heq⟩ | ⟨e, heq⟩ | ⟨p, hp, hroom, heq⟩
  · rw [heq]
    exact h
  · rw [heq]
    exact h.draw
  · rw [heq]
    exact h.enrolled hp hroom parent?

/-! ## Removal -/

/-- Members `gone` leave the registry of a process: they are `out` from then on. -/
theorem take (h : RegistrySound w out) {p : Process} (hp : w.processes.get? tok = some p)
    {f : Process → Process} (gone : List InstanceId)
    (hsub : (f p).registry.members.Sublist p.registry.members)
    (hsplit : ∀ id ∈ p.registry.members, id ∈ (f p).registry.members ∨ id ∈ gone)
    (hgone : ∀ id ∈ gone, id ∈ p.registry.members ∧ id ∉ (f p).registry.members)
    (hnodup : gone.Nodup) (hmax : (f p).maxInstances = p.maxInstances)
    (hrel : (f p).released = true → (f p).phase = .shutDown) :
    RegistrySound (w.modifyProcess tok f) (gone ++ out) := by
  have hproc : ∀ tok' p', (w.modifyProcess tok f).processes.get? tok' = some p' →
      (tok' = tok ∧ p' = f p) ∨ (tok' ≠ tok ∧ w.processes.get? tok' = some p') := by
    intro tok' p' hp'
    refine ((get?_modifyProcess_eq_some _ _ _).1 hp').imp_left ?_
    rintro ⟨htok, q, hq, rfl⟩
    rw [hp] at hq
    exact ⟨htok, Option.some.inj hq ▸ rfl⟩
  refine ⟨?_, ?_, ?_, ?_, ?_, ?_, h.instanceDrawn, ?_, ?_⟩
  · -- members that stay are not among those that go
    intro tok' p' id hp' hid
    rcases hproc tok' p' hp' with ⟨rfl, rfl⟩ | ⟨hne, hp'⟩
    · obtain ⟨hout, hi⟩ := h.member _ p id hp (hsub.subset hid)
      refine ⟨fun hmem => ?_, hi⟩
      rcases List.mem_append.1 hmem with hmem | hmem
      · exact (hgone id hmem).2 hid
      · exact hout hmem
    · obtain ⟨hout, i, hi, howner, halive⟩ := h.member tok' p' id hp' hid
      refine ⟨fun hmem => ?_, i, hi, howner, halive⟩
      rcases List.mem_append.1 hmem with hmem | hmem
      · -- a member of another process has that process as its owner
        obtain ⟨-, i', hi', howner', -⟩ := h.member tok p id hp (hgone id hmem).1
        rw [hi] at hi'
        obtain rfl := Option.some.inj hi'
        exact hne (howner.symm.trans howner')
      · exact hout hmem
  · intro tok' p' hp'
    rcases hproc tok' p' hp' with ⟨rfl, rfl⟩ | ⟨-, hp'⟩
    · exact (h.ascending _ p hp).sublist hsub
    · exact h.ascending tok' p' hp'
  · intro tok' p' hp' hne
    rcases hproc tok' p' hp' with ⟨rfl, rfl⟩ | ⟨-, hp'⟩
    · rw [hmax] at hne ⊢
      exact Nat.le_trans hsub.length_le (h.limited _ p hp hne)
    · exact h.limited tok' p' hp' hne
  · -- those that go were members, and so they are alive and were not out
    intro id hid
    rcases List.mem_append.1 hid with hid | hid
    · exact h.live_of_member hp (hgone id hid).1
    · exact h.outLive id hid
  · refine List.nodup_append.2 ⟨hnodup, h.outNodup, ?_⟩
    rintro id hid _ hid' rfl
    exact (h.member tok p id hp (hgone id hid).1).1 hid'
  · -- what was housed as a member is a member still, or it is out
    intro id i p' hi halive hp'
    rcases hproc i.owner p' hp' with ⟨heq, rfl⟩ | ⟨-, hp'⟩
    · rcases h.housed id i p hi halive (heq ▸ hp) with hid | hid
      · rcases hsplit id hid with hid | hid
        · exact .inl hid
        · exact .inr (List.mem_append_left _ hid)
      · exact .inr (List.mem_append_right _ hid)
    · rcases h.housed id i p' hi halive hp' with hid | hid
      · exact .inl hid
      · exact .inr (List.mem_append_right _ hid)
  · intro tok' p' hp'
    rcases hproc tok' p' hp' with ⟨rfl, -⟩ | ⟨-, hp'⟩
    · exact h.tokenDrawn _ p hp
    · exact h.tokenDrawn tok' p' hp'
  · intro tok' p' hp' hr
    rcases hproc tok' p' hp' with ⟨rfl, rfl⟩ | ⟨-, hp'⟩
    · exact hrel hr
    · exact h.released tok' p' hp' hr

/-- An instance that is taken from its registry has to be marked dead still. -/
theorem withdrawn (h : RegistrySound w out) {p : Process} (hp : w.processes.get? tok = some p)
    (hmem : id ∈ p.registry.members) :
    RegistrySound (w.modifyProcess tok (withdrawn id)) (id :: out) := by
  have hleft : ∀ m, m ∈ (World.withdrawn id p).registry.members ↔
      m ∈ p.registry.members ∧ m ≠ id := by
    intro m
    rw [show (World.withdrawn id p).registry.members = p.registry.members.filter (· ≠ id) from rfl,
      List.mem_filter, decide_eq_true_eq]
  refine h.take hp [id] List.filter_sublist ?_ ?_ (List.nodup_singleton _) rfl
    (fun hr => h.released tok p hp hr)
  · intro m hm
    by_cases heq : m = id
    · exact .inr (List.mem_singleton.2 heq)
    · exact .inl ((hleft m).2 ⟨hm, heq⟩)
  · intro m hm
    obtain rfl := List.mem_singleton.1 hm
    exact ⟨hmem, fun hin => ((hleft m).1 hin).2 rfl⟩

/-- An instance that an operation takes from its registry has to be marked dead still. -/
theorem withdraw (h : RegistrySound w out) (hw : w.withdraw t tok id = .ok w') :
    RegistrySound w' (id :: out) := by
  obtain ⟨p, hp, -, hmem, rfl⟩ := withdraw_ok hw
  exact h.withdrawn (live_ok.1 hp).1 hmem

/-- A shutdown leaves all members of the registry to be marked dead. -/
theorem beginShutdown (h : RegistrySound w out) {ids : List InstanceId}
    (hw : w.beginShutdown t tok = .ok (ids, w')) : RegistrySound w' (ids ++ out) := by
  obtain ⟨p, hp, rfl, rfl⟩ := beginShutdown_ok hw
  obtain ⟨hget, -⟩ := live_ok.1 hp
  refine h.take hget _ (List.nil_sublist _) ?_ ?_ ?_ rfl fun _ => rfl
  · exact fun id hid => .inr (List.mem_reverse.2 hid)
  · exact fun id hid => ⟨List.mem_reverse.1 hid, List.not_mem_nil⟩
  · exact List.nodup_reverse.2 (h.ascending tok p hget).nodup

/-! ## Marking -/

/-- An instance that is `out` is marked dead, and is out no more. -/
theorem mark (h : RegistrySound w (id :: out)) :
    RegistrySound (w.modifyInstance id fun i => { i with alive := false }) out := by
  obtain ⟨hnot, hnodup⟩ := List.nodup_cons.1 h.outNodup
  -- nothing but the instance changes, and it is neither a member nor out a second time
  have hinst : ∀ id', id' ≠ id →
      (w.modifyInstance id fun i => { i with alive := false }).instances.get? id' =
        w.instances.get? id' := by
    intro id' hne
    rw [get?_modifyInstance, if_neg hne]
  have halive : ∀ id' i, (w.modifyInstance id fun i => { i with alive := false }).instances.get?
      id' = some i → i.alive = true → id' ≠ id := by
    rintro id' i hi ha rfl
    rw [get?_modifyInstance, if_pos rfl, Option.map_eq_some_iff] at hi
    obtain ⟨j, -, rfl⟩ := hi
    cases ha
  refine ⟨?_, h.ascending, h.limited, ?_, hnodup, ?_, ?_, h.tokenDrawn, h.released⟩
  · intro tok p id' hp hid'
    obtain ⟨hout, i, hi, hrest⟩ := h.member tok p id' hp hid'
    refine ⟨fun hmem => hout (List.mem_cons_of_mem _ hmem), i, ?_, hrest⟩
    rw [hinst id' fun heq => hout (heq ▸ List.mem_cons_self)]
    exact hi
  · intro id' hid'
    obtain ⟨i, hi, ha⟩ := isLive_iff.1 (h.outLive id' (List.mem_cons_of_mem _ hid'))
    refine isLive_iff.2 ⟨i, ?_, ha⟩
    rw [hinst id' fun heq => hnot (heq ▸ hid')]
    exact hi
  · intro id' i p hi ha hp
    have hne := halive id' i hi ha
    rw [hinst id' hne] at hi
    rcases h.housed id' i p hi ha hp with hid | hid
    · exact .inl hid
    · exact .inr ((List.mem_cons.1 hid).resolve_left hne)
  · intro id' i hi
    rw [get?_modifyInstance] at hi
    split at hi
    · obtain ⟨j, hj, rfl⟩ := Option.map_eq_some_iff.1 hi
      exact h.instanceDrawn id' j hj
    · exact h.instanceDrawn id' i hi

/-! ## Ends of life -/

/-- The bindings of a process that is shut down become void. -/
theorem release (h : RegistrySound w out) {p : Process} (hp : w.processes.get? tok = some p)
    (hphase : p.phase = .shutDown) :
    RegistrySound (w.modifyProcess tok fun p => { p with released := true }) out := by
  refine h.take hp [] (List.Sublist.refl _) ?_ ?_ List.nodup_nil rfl fun _ => hphase
  · exact fun _ hid => .inl hid
  · exact fun _ hid => absurd hid List.not_mem_nil

/-- Processes may go. -/
theorem forget (h : RegistrySound w out)
    (hproc : ∀ tok p, w'.processes.get? tok = some p → w.processes.get? tok = some p)
    (hinst : w'.instances = w.instances) (hnext : w'.nextInstance = w.nextInstance)
    (htoken : w'.nextToken = w.nextToken) : RegistrySound w' out where
  member tok p id hp := by
    rw [hinst]
    exact h.member tok p id (hproc tok p hp)
  ascending tok p hp := h.ascending tok p (hproc tok p hp)
  limited tok p hp := h.limited tok p (hproc tok p hp)
  outLive id hid := by
    unfold isLive
    rw [hinst]
    exact h.outLive id hid
  outNodup := h.outNodup
  housed id i p hi ha hp := h.housed id i p (hinst ▸ hi) ha (hproc i.owner p hp)
  instanceDrawn id i hi := by
    rw [hnext, htoken]
    exact h.instanceDrawn id i (hinst ▸ hi)
  tokenDrawn tok p hp := by
    rw [htoken]
    exact h.tokenDrawn tok p (hproc tok p hp)
  released tok p hp := h.released tok p (hproc tok p hp)

end RegistrySound

end World

end TieredState
