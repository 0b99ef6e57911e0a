import TieredState.Proofs.Registry

/-!
# What never comes back

Identities and tokens are drawn once. As a world goes on, an instance that is dead or gone does not
live again, one that left a registry is not registered again, and a process that is shut down stays
so. `Grows w w'` says this of two worlds, the second of which comes later; it is a preorder, and
every operation takes a world to one that it grows to.
-/

namespace TieredState.World

variable {w w' w'' : World} {t : ThreadId} {tok : Token} {id : InstanceId}

/-- The second world comes later: of what there was in the first one, nothing has come back to it
that had ended. -/
structure Grows (w w' : World) : Prop where
  nextInstance : w.nextInstance ≤ w'.nextInstance
  nextToken : w.nextToken ≤ w'.nextToken
  instances : ∀ id i', w'.instances.get? id = some i' → id.number < w.nextInstance →
    ∃ i, w.instances.get? id = some i ∧ i.owner = i'.owner ∧ i.parent? = i'.parent? ∧
      (i'.alive = true → i.alive = true)
  members : ∀ tok p' id, w'.processes.get? tok = some p' → id ∈ p'.registry.members →
    id.number < w.nextInstance → ∃ p, w.processes.get? tok = some p ∧ id ∈ p.registry.members
  processes : ∀ tok p', w'.processes.get? tok = some p' → tok.number < w.nextToken →
    ∃ p, w.processes.get? tok = some p ∧ p.maxInstances = p'.maxInstances ∧
      (p.phase = .shutDown → p'.phase = .shutDown) ∧ (p.released = true → p'.released = true)

namespace Grows

theorem refl (w : World) : Grows w w where
  nextInstance := Nat.le_refl _
  nextToken := Nat.le_refl _
  instances _ i hi _ := ⟨i, hi, rfl, rfl, id⟩
  members _ p _ hp hid _ := ⟨p, hp, hid⟩
  processes _ p hp _ := ⟨p, hp, rfl, id, id⟩

theorem trans (h : Grows w w') (h' : Grows w' w'') : Grows w w'' where
  nextInstance := Nat.le_trans h.nextInstance h'.nextInstance
  nextToken := Nat.le_trans h.nextToken h'.nextToken
  instances id i'' hi'' hid := by
    obtain ⟨i', hi', ho', hp', ha'⟩ := h'.instances id i'' hi'' (Nat.lt_of_lt_of_le hid h.nextInstance)
    obtain ⟨i, hi, ho, hp, ha⟩ := h.instances id i' hi' hid
    exact ⟨i, hi, ho.trans ho', hp.trans hp', fun hlive => ha (ha' hlive)⟩
  members tok p'' id hp'' hmem hid := by
    obtain ⟨p', hp', hmem'⟩ := h'.members tok p'' id hp'' hmem (Nat.lt_of_lt_of_le hid h.nextInstance)
    exact h.members tok p' id hp' hmem' hid
  processes tok p'' hp'' htok := by
    obtain ⟨p', hp', hmax', hdown', hrel'⟩ :=
      h'.processes tok p'' hp'' (Nat.lt_of_lt_of_le htok h.nextToken)
    obtain ⟨p, hp, hmax, hdown, hrel⟩ := h.processes tok p' hp' htok
    exact ⟨p, hp, hmax.trans hmax', fun hd => hdown' (hdown hd), fun hr => hrel' (hrel hr)⟩

/-- What is dead or gone does not live again. -/
theorem not_live (h : Grows w w') (hid : id.number < w.nextInstance) (hdead : w.isLive id = false) :
    w'.isLive id = false := by
  refine Bool.eq_false_iff.2 fun hlive => ?_
  obtain ⟨i', hi', halive'⟩ := isLive_iff.1 hlive
  obtain ⟨i, hi, -, -, halive⟩ := h.instances id i' hi' hid
  rw [isLive_iff.2 ⟨i, hi, halive halive'⟩] at hdead
  cases hdead

/-! ## Changes of one part -/

theorem calm (hc : Calm w w') : Grows w w' where
  nextInstance := Nat.le_of_eq hc.nextInstance.symm
  nextToken := Nat.le_of_eq hc.nextToken.symm
  instances id i' hi' _ := by
    obtain ⟨i, hi, ho, hp, ha⟩ := hc.instance_of hi'
    exact ⟨i, hi, ho, hp, fun hlive => ha.trans hlive⟩
  members tok p' id hp' hmem _ := by
    obtain ⟨p, hp, -, -, hreg, -⟩ := hc.process_of hp'
    exact ⟨p, hp, hreg ▸ hmem⟩
  processes tok p' hp' _ := by
    obtain ⟨p, hp, hphase, hmax, -, hrel⟩ := hc.process_of hp'
    exact ⟨p, hp, hmax, fun hd => hphase ▸ hd, fun hr => hrel ▸ hr⟩

theorem of_local (hl : Local t w w') : Grows w w' where
  nextInstance := Nat.le_of_eq hl.nextInstance.symm
  nextToken := Nat.le_of_eq hl.nextToken.symm
  instances _ i hi _ := ⟨i, hl.instances ▸ hi, rfl, rfl, id⟩
  members _ p _ hp hmem _ := ⟨p, hl.processes ▸ hp, hmem⟩
  processes _ p hp _ := ⟨p, hl.processes ▸ hp, rfl, id, id⟩

/-- A process may lose members, and change in its phase and in whether its bindings are void, each
in one direction. -/
theorem of_modifyProcess {f : Process → Process}
    (hmem : ∀ p, w.processes.get? tok = some p → ∀ id ∈ (f p).registry.members,
      id ∈ p.registry.members)
    (hmax : ∀ p, (f p).maxInstances = p.maxInstances)
    (hdown : ∀ p, p.phase = .shutDown → (f p).phase = .shutDown)
    (hrel : ∀ p, p.released = true → (f p).released = true) :
    Grows w (w.modifyProcess tok f) := by
  refine ⟨Nat.le_refl _, Nat.le_refl _, fun _ i hi _ => ⟨i, hi, rfl, rfl, id⟩, ?_, ?_⟩
  · intro tok' p' id hp' hid _
    rcases (get?_modifyProcess_eq_some _ _ _).1 hp' with ⟨rfl, p, hp, rfl⟩ | ⟨-, hp⟩
    · exact ⟨p, hp, hmem p hp id hid⟩
    · exact ⟨p', hp, hid⟩
  · intro tok' p' hp' _
    rcases (get?_modifyProcess_eq_some _ _ _).1 hp' with ⟨rfl, p, hp, rfl⟩ | ⟨-, hp⟩
    · exact ⟨p, hp, (hmax p).symm, hdown p, hrel p⟩
    · exact ⟨p', hp, rfl, id, id⟩

/-- An instance may be changed, but not be brought back to life. -/
theorem of_modifyInstance {f : Instance → Instance} (hown : ∀ i, (f i).owner = i.owner)
    (hparent : ∀ i, (f i).parent? = i.parent?) (halive : ∀ i, (f i).alive = true → i.alive = true) :
    Grows w (w.modifyInstance id f) := by
  refine ⟨Nat.le_refl _, Nat.le_refl _, ?_, fun _ p _ hp hmem _ => ⟨p, hp, hmem⟩,
    fun _ p hp _ => ⟨p, hp, rfl, fun h => h, fun h => h⟩⟩
  intro id' i' hi' _
  rw [get?_modifyInstance] at hi'
  split at hi'
  · obtain ⟨i, hi, rfl⟩ := Option.map_eq_some_iff.1 hi'
    exact ⟨i, hi, (hown i).symm, (hparent i).symm, halive i⟩
  · exact ⟨i', hi', rfl, rfl, fun h => h⟩

/-! ## The operations -/

/-- A process that is started has a token of its own, so it does not bring back an ended one. -/
theorem start (w : World) (c : Config) : Grows w (w.start c).2 := by
  have hproc : ∀ tok p, (w.start c).2.processes.get? tok = some p →
      (tok = ⟨w.nextToken⟩ ∧ p = .ofConfig c) ∨ w.processes.get? tok = some p := by
    intro tok p hp
    rw [get?_start] at hp
    split at hp
    · next heq => exact .inl ⟨heq, (Option.some.inj hp).symm⟩
    · exact .inr hp
  refine ⟨Nat.le_refl _, Nat.le_succ _, fun _ i hi _ => ⟨i, hi, rfl, rfl, id⟩, ?_, ?_⟩
  · intro tok p id hp hid _
    rcases hproc tok p hp with ⟨-, rfl⟩ | hp
    · cases hid
    · exact ⟨p, hp, hid⟩
  · intro tok p hp htok
    rcases hproc tok p hp with ⟨rfl, -⟩ | hp
    · exact absurd htok (Nat.lt_irrefl _)
    · exact ⟨p, hp, rfl, id, id⟩

/-- An identity that is drawn is one that nothing had before. -/
theorem draw (w : World) : Grows w w.draw where
  nextInstance := Nat.le_succ _
  nextToken := Nat.le_refl _
  instances _ i hi _ := ⟨i, hi, rfl, rfl, id⟩
  members _ p _ hp hid _ := ⟨p, hp, hid⟩
  processes _ p hp _ := ⟨p, hp, rfl, id, id⟩

/-- An instance that is registered has an identity of its own, so no ended one comes back. -/
theorem enrolled (w : World) (tok : Token) (parent? : Option InstanceId) :
    Grows w (w.enrolled tok parent?) := by
  refine ⟨Nat.le_succ _, Nat.le_refl _, ?_, ?_, ?_⟩
  · intro id i' hi' hid
    rw [get?_enrolled] at hi'
    -- the new instance is not of before
    split at hi'
    · next heq =>
      rw [heq] at hid
      exact absurd hid (Nat.lt_irrefl _)
    · exact ⟨i', hi', rfl, rfl, fun h => h⟩
  · intro tok' p' id hp' hmem hid
    rcases get?_enrolled_eq_some.1 hp' with ⟨rfl, p, hp, rfl⟩ | ⟨-, hp⟩
    · -- nor is the new member
      rcases Registry.mem_insertAscending.1 hmem with rfl | hmem
      · exact absurd hid (Nat.lt_irrefl _)
      · exact ⟨p, hp, hmem⟩
    · exact ⟨p', hp, hmem⟩
  · intro tok' p' hp' _
    rcases get?_enrolled_eq_some.1 hp' with ⟨rfl, p, hp, rfl⟩ | ⟨-, hp⟩
    · refine ⟨p, hp, rfl, fun hd => ?_, id⟩
      simp [Process.register, hd]
    · exact ⟨p', hp, rfl, id, id⟩

/-- To register an instance brings nothing back, whether it succeeds or not. -/
theorem enroll (w : World) (t : ThreadId) (tok : Token) (parent? : Option InstanceId) :
    Grows w (w.enroll t tok parent?).2 := by
  rcases enroll_cases w t tok parent? with ⟨e, heq⟩ | ⟨e, heq⟩ | ⟨p, -, -, heq⟩
  · rw [heq]
    exact .refl w
  · rw [heq]
    exact draw w
  · rw [heq]
    exact enrolled w tok parent?

theorem withdraw (hw : w.withdraw t tok id = .ok w') : Grows w w' := by
  obtain ⟨p, -, -, -, rfl⟩ := withdraw_ok hw
  refine of_modifyProcess ?_ (fun _ => rfl) (fun _ hd => hd) (fun _ hr => hr)
  exact fun p _ id' hid => List.mem_of_mem_filter hid

theorem beginShutdown {ids : List InstanceId} (hw : w.beginShutdown t tok = .ok (ids, w')) :
    Grows w w' := by
  obtain ⟨p, -, -, rfl⟩ := beginShutdown_ok hw
  refine of_modifyProcess ?_ (fun _ => rfl) (fun _ _ => rfl) (fun _ hr => hr)
  exact fun _ _ _ hid => absurd hid List.not_mem_nil

/-- What is marked dead does not come back. -/
theorem mark (w : World) (id : InstanceId) :
    Grows w (w.modifyInstance id fun i => { i with alive := false }) :=
  of_modifyInstance (fun _ => rfl) (fun _ => rfl) fun _ h => Bool.noConfusion h

/-- Instances and processes may go. -/
theorem forget (hproc : ∀ tok p, w'.processes.get? tok = some p → w.processes.get? tok = some p)
    (hinst : ∀ id i, w'.instances.get? id = some i → w.instances.get? id = some i)
    (hnext : w'.nextInstance = w.nextInstance) (htoken : w'.nextToken = w.nextToken) :
    Grows w w' where
  nextInstance := Nat.le_of_eq hnext.symm
  nextToken := Nat.le_of_eq htoken.symm
  instances id i hi _ := ⟨i, hinst id i hi, rfl, rfl, fun h => h⟩
  members tok p _ hp hid _ := ⟨p, hproc tok p hp, hid⟩
  processes tok p hp _ := ⟨p, hproc tok p hp, rfl, id, id⟩

end Grows

end TieredState.World
