import TieredState.Proofs.Invariant

/-!
# Registries and lives agree

Whether an instance is alive and whether it is registered are two things, changed at different
moments, with hooks in between that may do anything an embedder can do. At every point of a run they
differ only for the instances that an operation under way has condemned: taken from the registry,
and not marked dead before their hooks have run.
-/

namespace TieredState

namespace World

/-- What registries say at one point of a run. -/
structure Consistent (w : World) : Prop where
  alive : ∀ tok id, w.registers tok id = true →
    ∃ i, w.instances.get? id = some i ∧ i.owner = tok ∧ i.alive = true
  unique : ∀ tok tok' id, w.registers tok id = true → w.registers tok' id = true → tok' = tok
  limited : ∀ tok p, w.processes.get? tok = some p → p.maxInstances ≠ 0 →
    p.registry.size ≤ p.maxInstances

variable {w w' : World} {tok : Token} {id : InstanceId} {out : List InstanceId}

/-- A world that is sound is consistent. -/
theorem RegistrySound.consistent (h : RegistrySound w out) : w.Consistent where
  alive tok id hreg := by
    obtain ⟨p, hp, hid⟩ := registers_iff.1 hreg
    exact (h.member tok p id hp hid).2
  unique tok tok' id hreg hreg' := by
    obtain ⟨p, hp, hid⟩ := registers_iff.1 hreg
    obtain ⟨p', hp', hid'⟩ := registers_iff.1 hreg'
    obtain ⟨-, i, hi, rfl, -⟩ := h.member tok p id hp hid
    obtain ⟨-, i', hi', rfl, -⟩ := h.member tok' p' id hp' hid'
    rw [hi] at hi'
    rw [Option.some.inj hi']
  limited := h.limited

/-- Registration is not taken back later: what is registered now and existed before was registered
before. -/
theorem Grows.registers (h : Grows w w') (hid : id.number < w.nextInstance)
    (hreg : w'.registers tok id = true) : w.registers tok id = true := by
  obtain ⟨p', hp', hmem⟩ := registers_iff.1 hreg
  exact registers_iff.2 (h.members tok p' id hp' hmem hid)

/-- The owner stays the owner, so an instance can only be registered where it was at first. -/
theorem Grows.registers_owner {tok' : Token} (h : Grows w w') (hw : w.Consistent)
    (hw' : w'.Consistent) (hid : id.number < w.nextInstance) (hreg : w.registers tok id = true)
    (hreg' : w'.registers tok' id = true) : tok' = tok := by
  obtain ⟨i, hi, rfl, -⟩ := hw.alive tok id hreg
  obtain ⟨i', hi', rfl, -⟩ := hw'.alive tok' id hreg'
  obtain ⟨j, hj, howner, -⟩ := h.instances id i' hi' hid
  rw [hi] at hj
  rw [Option.some.inj hj, howner]

/-- An instance that is not registered any more is dead, unless it is `out`. -/
theorem RegistrySound.dead_iff (h : RegistrySound w out) {p : Process}
    (hp : w.processes.get? tok = some p) (hid : id ∉ p.registry.members)
    (howner : ∀ i, w.instances.get? id = some i → i.owner = tok) :
    w.isLive id = false ↔ id ∉ out := by
  constructor
  · intro hdead hout
    rw [h.outLive id hout] at hdead
    cases hdead
  · intro hout
    refine Bool.eq_false_iff.2 fun hlive => ?_
    obtain ⟨i, hi, halive⟩ := isLive_iff.1 hlive
    obtain rfl := howner i hi
    exact (h.housed id i p hi halive hp).elim hid hout

end World

namespace Machine

open World

variable {m₀ m m' : Machine}

/-- Registries and lives agree at every point `m` of a run. What was registered at an earlier point
`m₀` and is not any more is dead, except exactly for what is condemned, and is not registered again
at any later point `m'`; nor does what is dead live again. -/
theorem registries_and_lives (hm₀ : Reachable orderly m₀) (hrun : Run orderly m₀ m)
    (hrun' : Run orderly m m') :
    m.session.world.Consistent ∧
    (∀ tok id, m₀.session.world.registers tok id = true → m.session.world.registers tok id = false →
      (m.session.world.processes.contains tok = true →
        (m.session.world.isLive id = false ↔ id ∉ m.condemned)) ∧
      ∀ tok', m'.session.world.registers tok' id = false) ∧
    ∀ id, id.number < m.session.world.nextInstance → m.session.world.isLive id = false →
      m'.session.world.isLive id = false := by
  have hsound₀ := sound_of_reachable hm₀
  obtain ⟨hsound, hgrows⟩ := sound_of_run hsound₀ hrun
  obtain ⟨hsound', hgrows'⟩ := sound_of_run hsound hrun'
  refine ⟨hsound.registry.consistent, ?_, fun id hid hdead => hgrows'.not_live hid hdead⟩
  intro tok id hreg hleft
  have hconsistent₀ := hsound₀.registry.consistent
  obtain ⟨i₀, hi₀, howner₀, -⟩ := hconsistent₀.alive tok id hreg
  have hdrawn₀ := (hsound₀.registry.instanceDrawn id i₀ hi₀).1
  constructor
  · -- the owner was the process then, and is it now
    intro hsome
    obtain ⟨p, hp⟩ := Option.isSome_iff_exists.1 hsome
    have hnot : id ∉ p.registry.members := by
      intro hid
      rw [registers_iff.2 ⟨p, hp, hid⟩] at hleft
      cases hleft
    refine hsound.registry.dead_iff hp hnot ?_
    intro i hi
    obtain ⟨j, hj, howner, -⟩ := hgrows.instances id i hi hdrawn₀
    rw [hi₀] at hj
    rw [← howner, ← Option.some.inj hj, howner₀]
  · -- a later registration would be with the same owner, and so would be one of now
    intro tok'
    refine Bool.eq_false_iff.2 fun hagain => ?_
    obtain rfl := (hgrows.trans hgrows').registers_owner hconsistent₀
      hsound'.registry.consistent hdrawn₀ hreg hagain
    have hdrawn := Nat.lt_of_lt_of_le hdrawn₀ hgrows.nextInstance
    rw [hgrows'.registers hdrawn hagain] at hleft
    cases hleft

/-- The worker has taken the instance from the registry, and its hooks are still to run. -/
theorem condemned_by_worker :
    ((destroyedByWorker.run 4).step.session.world.isLive ⟨1⟩ = false ↔
      ⟨1⟩ ∉ (destroyedByWorker.run 4).step.condemned) ∧
    ∀ tok, ((destroyedByWorker.run 4).step.run 3).session.world.registers tok ⟨1⟩ = false := by
  have hreach : Reachable orderly (destroyedByWorker.run 4) := .of_run (by decide +kernel)
  have hrun : Run orderly (destroyedByWorker.run 4) (destroyedByWorker.run 4).step :=
    .step .refl (by decide +kernel)
  have hlater : Run orderly (destroyedByWorker.run 4).step ((destroyedByWorker.run 4).step.run 3) :=
    .of_run (by decide +kernel)
  obtain ⟨hdead, hnever⟩ := (registries_and_lives hreach hrun hlater).2.1 ⟨1⟩ ⟨1⟩
    (by decide +kernel) (by decide +kernel)
  exact ⟨hdead (by decide +kernel), hnever⟩

end Machine

end TieredState
