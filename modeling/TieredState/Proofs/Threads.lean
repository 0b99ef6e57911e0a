import TieredState.Proofs.Calm

/-!
# What a thread keeps

A thread keeps a slot for each process and a storage for each binding. `Thread.Sound` says that the
two fit together: every binding has its storage, no two bindings share one, and storages are only
those that were drawn. Operations on bindings change one thread only (`Local`), and keep it sound.

* `bindThread_spec`, `unbindThread_ok`, `borrow_ok`, `endBorrow_spec` — what each operation does to
  the bindings, to the use of storages, and to soundness.
* `unbindThread_error`, `borrow_error` — a refusal is always due to a storage in use, or, for a
  handle, to a binding or an instance that is gone.
-/

namespace TieredState

namespace Thread

/-- The slots and the storages of a thread fit together. -/
structure Sound (th : Thread) : Prop where
  stored : ∀ tok b, th.binding? tok = some b → (th.usage b.storage).isSome
  apart : ∀ tok tok' b b', th.binding? tok = some b → th.binding? tok' = some b' →
    b.storage = b'.storage → tok = tok'
  drawn : ∀ s, (th.usage s).isSome → s.number < th.nextStorage

variable {th th' : Thread}

theorem sound_empty : ({} : Thread).Sound where
  stored _ _ h := by cases h
  apart _ _ _ _ h := by cases h
  drawn _ h := by cases h

theorem Sound.congr (h : th.Sound) (hb : ∀ tok, th'.binding? tok = th.binding? tok)
    (hu : ∀ s, th'.usage s = th.usage s) (hn : th'.nextStorage = th.nextStorage) : th'.Sound where
  stored tok b hget := by
    rw [hb] at hget
    rw [hu]
    exact h.stored tok b hget
  apart tok tok' b b' hget hget' := by
    rw [hb] at hget hget'
    exact h.apart tok tok' b b' hget hget'
  drawn s hs := by
    rw [hu] at hs
    rw [hn]
    exact h.drawn s hs

/-! ## Slots -/

/-- A slot that is written tells the binding under its process, and the other slots theirs. -/
theorem binding?_insert (th : Thread) (tok tok' : Token) (slot : Slot) :
    ({ th with slots := th.slots.insert tok slot } : Thread).binding? tok' =
      if tok' = tok then slot.binding? else th.binding? tok' := by
  unfold binding?
  rw [Table.get?_insert]
  split <;> rfl

/-- A storage belongs to a binding when one of the slots has a binding with it. -/
theorem owns_iff {s : StorageId} :
    th.owns s = true ↔ ∃ tok b, th.binding? tok = some b ∧ b.storage = s := by
  unfold owns binding?
  rw [List.any_eq_true]
  constructor
  · rintro ⟨slot, hmem, hany⟩
    obtain ⟨tok, hget⟩ := Table.mem_values.1 hmem
    obtain ⟨b, hb, heq⟩ := Option.any_eq_true _ _ |>.1 hany
    exact ⟨tok, b, by rw [hget]; exact hb, of_decide_eq_true heq⟩
  · rintro ⟨tok, b, hb, rfl⟩
    obtain ⟨slot, hget, hslot⟩ := Option.bind_eq_some_iff.1 hb
    refine ⟨slot, Table.mem_values.2 ⟨tok, hget⟩, ?_⟩
    simp [hslot]

@[simp] theorem binding?_tidy (th : Thread) (tok : Token) : th.tidy.binding? tok = th.binding? tok :=
  rfl

/-- A storage that is not in use stays only if a binding owns it. -/
theorem usage_tidy (th : Thread) (s : StorageId) :
    th.tidy.usage s = (th.usage s).filter fun u => u || th.owns s := by
  unfold usage tidy
  rw [Table.get?_filter]
  cases th.storages.get? s with
  | none => rfl
  | some st =>
    simp only [Option.filter, Option.map_some]
    split <;> rfl

/-- Storages that belong to a binding are not dropped. -/
theorem Sound.tidy (h : th.Sound) : th.tidy.Sound where
  stored tok b hb := by
    obtain ⟨u, hu⟩ := Option.isSome_iff_exists.1 (h.stored tok b hb)
    have howns : th.owns b.storage = true := owns_iff.2 ⟨tok, b, hb, rfl⟩
    rw [usage_tidy, hu]
    simp [howns]
  apart := h.apart
  drawn s hs := by
    rw [usage_tidy] at hs
    obtain ⟨u, hu⟩ := Option.isSome_iff_exists.1 hs
    rw [Option.filter_eq_some_iff] at hu
    exact h.drawn s (by rw [hu.1]; rfl)

/-- Some of the bindings may go. -/
theorem Sound.restrict (h : th.Sound) {slots : Table Token Slot}
    (hb : ∀ tok b, ({ th with slots } : Thread).binding? tok = some b → th.binding? tok = some b) :
    ({ th with slots } : Thread).Sound where
  stored tok b hget := h.stored tok b (hb tok b hget)
  apart tok tok' b b' hget hget' := h.apart tok tok' b b' (hb tok b hget) (hb tok' b' hget')
  drawn := h.drawn

/-- Only the slot that is dropped is gone. -/
theorem slots_dropSlot (th : Thread) (tok tok' : Token) :
    (th.dropSlot tok).slots.get? tok' = if tok' = tok then none else th.slots.get? tok' :=
  Table.get?_erase _ _ _

/-- Slots may be dropped one after the other. -/
theorem slots_dropSlots (th : Thread) (lost : List Token) (tok : Token) :
    (lost.foldl dropSlot th).slots.get? tok = if tok ∈ lost then none else th.slots.get? tok := by
  induction lost generalizing th with
  | nil => rfl
  | cons tok' lost ih =>
    rw [List.foldl_cons, ih, slots_dropSlot]
    by_cases hlost : tok ∈ lost
    · rw [if_pos hlost, if_pos (List.mem_cons_of_mem _ hlost)]
    · rw [if_neg hlost]
      by_cases heq : tok = tok'
      · rw [if_pos heq, if_pos (heq ▸ List.mem_cons_self)]
      · rw [if_neg heq, if_neg fun hmem => (List.mem_cons.1 hmem).elim heq hlost]

/-- Only the binding whose slot is dropped is gone. -/
theorem binding?_dropSlot (th : Thread) (tok tok' : Token) :
    (th.dropSlot tok).binding? tok' = if tok' = tok then none else th.binding? tok' := by
  unfold dropSlot binding? tidy
  rw [Table.get?_erase]
  split <;> rfl

/-- A sound thread may forget a process. -/
theorem Sound.dropSlot (h : th.Sound) (tok : Token) : (th.dropSlot tok).Sound := by
  refine Sound.tidy (h.restrict ?_)
  intro tok' b hget
  have hdrop := binding?_dropSlot th tok tok'
  rw [show (th.dropSlot tok).binding? tok' = some b from hget] at hdrop
  split at hdrop
  · cases hdrop
  · exact hdrop.symm

/-- What is in use after a slot was dropped was so before. -/
theorem usage_dropSlot_true {tok : Token} {s : StorageId} (h : (th.dropSlot tok).usage s = some true) :
    th.usage s = some true := by
  unfold dropSlot at h
  rw [usage_tidy, Option.filter_eq_some_iff] at h
  exact h.1

/-! ## Ending a binding -/

/-- Only the storage that is erased is gone. -/
theorem usage_erase (th : Thread) (s s' : StorageId) :
    ({ th with storages := th.storages.erase s } : Thread).usage s' =
      if s' = s then none else th.usage s' := by
  unfold usage
  rw [Table.get?_erase]
  split <;> rfl

/-- A binding goes with its storage, which no other binding has. -/
theorem Sound.unbind (h : th.Sound) {tok : Token} {b : Binding} (hb : th.binding? tok = some b)
    {slot : Slot} (hslot : slot.binding? = none) :
    ({ th with slots := th.slots.insert tok slot, storages := th.storages.erase b.storage } :
      Thread).Sound := by
  have hget : ∀ tok' b', ({ th with slots := th.slots.insert tok slot } : Thread).binding? tok' =
      some b' → tok' ≠ tok ∧ th.binding? tok' = some b' := by
    intro tok' b' hget'
    rw [binding?_insert] at hget'
    split at hget'
    · rw [hslot] at hget'
      cases hget'
    · next hne => exact ⟨hne, hget'⟩
  refine ⟨?_, ?_, ?_⟩
  · -- another binding has another storage, which is not the one that goes
    intro tok' b' hget'
    obtain ⟨hne, hb'⟩ := hget tok' b' hget'
    have hother : b'.storage ≠ b.storage := fun heq => hne (h.apart tok' tok b' b hb' hb heq)
    have husage := usage_erase th b.storage b'.storage
    rw [if_neg hother] at husage
    exact husage ▸ h.stored tok' b' hb'
  · intro tok₁ tok₂ b₁ b₂ h₁ h₂
    exact h.apart tok₁ tok₂ b₁ b₂ (hget tok₁ b₁ h₁).2 (hget tok₂ b₂ h₂).2
  · intro s hs
    have husage := usage_erase th b.storage s
    change (({ th with storages := th.storages.erase b.storage } : Thread).usage s).isSome at hs
    rw [husage] at hs
    split at hs
    · cases hs
    · exact h.drawn s hs

end Thread

namespace World

open Thread

variable {w w' : World} {t : ThreadId} {tok : Token} {th : Thread}

/-! ## Changes of one thread -/

/-- At most one thread has changed. -/
structure Local (t : ThreadId) (w w' : World) : Prop where
  instances : w'.instances = w.instances
  processes : w'.processes = w.processes
  nextInstance : w'.nextInstance = w.nextInstance
  nextToken : w'.nextToken = w.nextToken
  others : ∀ t', t' ≠ t → w'.thread t' = w.thread t'

/-- A world in which nothing changes has no other thread changed. -/
theorem Local.refl (t : ThreadId) (w : World) : Local t w w := ⟨rfl, rfl, rfl, rfl, fun _ _ => rfl⟩

theorem local_setThread (w : World) (t : ThreadId) (th : Thread) : Local t w (w.setThread t th) where
  instances := rfl
  processes := rfl
  nextInstance := rfl
  nextToken := rfl
  others t' hne := by rw [thread_setThread, if_neg hne]

/-- What is done to threads ends no instance. -/
theorem Local.isLive (h : Local t w w') (id : InstanceId) : w'.isLive id = w.isLive id := by
  unfold World.isLive
  rw [h.instances]

/-! ## Binding -/

/-- Pruning ends the bindings under processes whose keys are released. -/
theorem binding?_pruneSlots (w : World) (th : Thread) (tok : Token) :
    (w.pruneSlots th).binding? tok = if w.isReleased tok then none else th.binding? tok := by
  unfold pruneSlots
  rw [binding?_tidy]
  unfold binding?
  rw [Table.get?_filter]
  cases th.slots.get? tok with
  | none => simp
  | some slot => cases w.isReleased tok <;> simp [Option.filter]

/-- A sound thread is sound when it is pruned. -/
theorem pruneSlots_sound (w : World) (h : th.Sound) : (w.pruneSlots th).Sound := by
  refine Sound.tidy (h.restrict ?_)
  intro tok b hget
  have hprune := binding?_pruneSlots w th tok
  rw [show (w.pruneSlots th).binding? tok = some b from hget] at hprune
  split at hprune
  · cases hprune
  · exact hprune.symm

/-- What is in use after pruning was so before. -/
theorem usage_pruneSlots_true {s : StorageId} (h : (w.pruneSlots th).usage s = some true) :
    th.usage s = some true := by
  unfold pruneSlots at h
  rw [usage_tidy, Option.filter_eq_some_iff] at h
  exact h.1

/-- A binding ends with its storage. -/
theorem endBinding_ok {slot slot' : Slot} {b : Binding} {th' : Thread}
    (h : w.endBinding th slot b = .ok (slot', th')) :
    slot'.binding? = none ∧ th' = { th with storages := th.storages.erase b.storage } := by
  unfold endBinding at h
  split at h
  · cases h
  · obtain ⟨rfl, rfl⟩ := Prod.mk.inj (Except.ok.inj h)
    exact ⟨rfl, rfl⟩

/-- A binding only resists its end while its variables are in use. -/
theorem endBinding_error {slot : Slot} {b : Binding} {e : AccessError}
    (h : w.endBinding th slot b = .error e) : e = .reentrant ∧ th.usage b.storage = some true := by
  unfold endBinding at h
  split at h
  · next hget => exact ⟨(Except.error.inj h).symm, by rw [usage, hget]; rfl⟩
  · cases h

section Start

variable {slot : Slot} {id : InstanceId}

/-- The binding that is started is found under its process, and the others stay. -/
theorem binding?_startBinding (w : World) (th : Thread) (tok : Token) (slot : Slot)
    (id : InstanceId) (tok' : Token) :
    (w.startBinding th tok slot id).2.binding? tok' =
      if tok' = tok then some (w.startBinding th tok slot id).1 else th.binding? tok' :=
  binding?_insert th tok tok' ⟨some (w.startBinding th tok slot id).1, _⟩

/-- A storage that is new is free. -/
theorem usage_startBinding (w : World) (th : Thread) (tok : Token) (slot : Slot) (id : InstanceId)
    (s : StorageId) :
    (w.startBinding th tok slot id).2.usage s =
      if s = ⟨th.nextStorage⟩ then some false else th.usage s := by
  unfold startBinding usage
  dsimp only
  rw [Table.get?_insert]
  split <;> rfl

/-- The new storage was not drawn before, so no other binding has it. -/
theorem startBinding_sound
    (h : ({ th with slots := th.slots.insert tok slot } : Thread).Sound) :
    (w.startBinding th tok slot id).2.Sound := by
  have hold : ∀ tok' b, tok' ≠ tok → th.binding? tok' = some b →
      ({ th with slots := th.slots.insert tok slot } : Thread).binding? tok' = some b := by
    intro tok' b hne hb
    rw [binding?_insert, if_neg hne, hb]
  -- storages of other bindings were drawn before
  have hfresh : ∀ tok' b, tok' ≠ tok → th.binding? tok' = some b → b.storage ≠ ⟨th.nextStorage⟩ := by
    intro tok' b hne hb heq
    have hlt := h.drawn b.storage (h.stored tok' b (hold tok' b hne hb))
    rw [heq] at hlt
    exact Nat.lt_irrefl _ hlt
  refine ⟨?_, ?_, ?_⟩
  · intro tok' b hb
    rw [binding?_startBinding] at hb
    rw [usage_startBinding]
    split at hb
    · obtain rfl := Option.some.inj hb
      have hown : (w.startBinding th tok slot id).1.storage = ⟨th.nextStorage⟩ := rfl
      rw [if_pos hown]
      rfl
    · next hne =>
      rw [if_neg (hfresh tok' b hne hb)]
      exact h.stored tok' b (hold tok' b hne hb)
  · intro tok₁ tok₂ b₁ b₂ h₁ h₂ heq
    rw [binding?_startBinding] at h₁ h₂
    -- two old bindings, or the new one with an old one
    split at h₁ <;> split at h₂
    · next e₁ e₂ => rw [e₁, e₂]
    · next hne =>
      obtain rfl := Option.some.inj h₁
      exact absurd heq.symm (hfresh tok₂ b₂ hne h₂)
    · next hne _ =>
      obtain rfl := Option.some.inj h₂
      exact absurd heq (hfresh tok₁ b₁ hne h₁)
    · next hne₁ hne₂ => exact h.apart _ _ _ _ (hold _ _ hne₁ h₁) (hold _ _ hne₂ h₂) heq
  · intro s hs
    rw [usage_startBinding] at hs
    show s.number < th.nextStorage + 1
    split at hs
    · next heq =>
      rw [heq]
      exact Nat.lt_succ_self _
    · exact Nat.lt_succ_of_lt (h.drawn s hs)

end Start

/-- What binding a thread does, whether it succeeds or not: slots of processes whose bindings are
void go, and a binding under the process itself is the old one or the new one. -/
structure BindSpec (w : World) (t : ThreadId) (tok : Token) (id : InstanceId)
    (r : Except AccessError Handle) (w' : World) : Prop where
  frame : Local t w w'
  others : ∀ tok', tok' ≠ tok → (w'.thread t).binding? tok' =
    if w.isReleased tok' then none else (w.thread t).binding? tok'
  own : (∃ h, r = .ok h ∧ h.target = id ∧ (w'.thread t).binding? tok = some h) ∨
    ∃ e, r = .error e ∧ (w'.thread t).binding? tok =
      if w.isReleased tok then none else (w.thread t).binding? tok
  sound : (w.thread t).Sound → (w'.thread t).Sound
  usage : ∀ s, (w'.thread t).usage s = some true → (w.thread t).usage s = some true

/-- It is enough to look at the thread. -/
theorem bindSpec_setThread {r : Except AccessError Handle} {id : InstanceId} {th : Thread}
    (hothers : ∀ tok', tok' ≠ tok → th.binding? tok' =
      if w.isReleased tok' then none else (w.thread t).binding? tok')
    (hown : (∃ h, r = .ok h ∧ h.target = id ∧ th.binding? tok = some h) ∨
      ∃ e, r = .error e ∧ th.binding? tok =
        if w.isReleased tok then none else (w.thread t).binding? tok)
    (hsound : (w.thread t).Sound → th.Sound)
    (husage : ∀ s, th.usage s = some true → (w.thread t).usage s = some true) :
    BindSpec w t tok id r (w.setThread t th) := by
  refine ⟨local_setThread w t th, ?_, ?_, ?_, ?_⟩
  all_goals rw [thread_setThread_self]
  · exact hothers
  · exact hown
  · exact hsound
  · exact husage

/-- To bind a thread does what is said of it, however it ends. -/
theorem bindThread_spec (w : World) (t : ThreadId) (tok : Token) (id : InstanceId) :
    BindSpec w t tok id (w.bindThread t tok id).1 (w.bindThread t tok id).2 := by
  have hprune := binding?_pruneSlots w (w.thread t)
  unfold bindThread
  -- from here on only the pruned thread matters
  generalize hth : w.pruneSlots (w.thread t) = th at hprune
  have hsound : (w.thread t).Sound → th.Sound := fun h => hth ▸ pruneSlots_sound w h
  have husage : ∀ s, th.usage s = some true → (w.thread t).usage s = some true :=
    fun s hs => usage_pruneSlots_true (hth ▸ hs)
  dsimp only
  generalize hslot : (th.slots.get? tok).getD {} = slot
  have hbinding : th.binding? tok = slot.binding? := by
    rw [← hslot]
    unfold binding?
    cases th.slots.get? tok <;> rfl
  split
  · -- nothing is bound, so a binding starts
    next hnone =>
    refine bindSpec_setThread ?_ (.inl ⟨_, rfl, rfl, ?_⟩) ?_ ?_
    · intro tok' hne
      rw [binding?_startBinding, if_neg hne, hprune]
    · rw [binding?_startBinding, if_pos rfl]
    · intro h
      refine startBinding_sound (Sound.congr (hsound h) ?_ (fun _ => rfl) rfl)
      intro tok'
      rw [binding?_insert]
      split
      · next heq => rw [heq, hbinding]
      · rfl
    · intro s hs
      rw [usage_startBinding] at hs
      split at hs
      · cases hs
      · exact husage s hs
  · next b hsome =>
    split
    · -- the binding is to the same instance and is kept
      next htarget =>
      exact bindSpec_setThread (fun tok' _ => hprune tok')
        (.inl ⟨b, rfl, htarget, hbinding.trans hsome⟩) hsound husage
    · split
      · -- the old binding is in use: what was pruned stays pruned
        exact bindSpec_setThread (fun tok' _ => hprune tok') (.inr ⟨_, rfl, hprune tok⟩) hsound husage
      · -- the old binding ends and a new one starts in its slot
        next slot' th' hend =>
        obtain ⟨hnone, rfl⟩ := endBinding_ok hend
        refine bindSpec_setThread ?_ (.inl ⟨_, rfl, rfl, ?_⟩) ?_ ?_
        · intro tok' hne
          rw [binding?_startBinding, if_neg hne]
          exact hprune tok'
        · rw [binding?_startBinding, if_pos rfl]
        · intro h
          exact startBinding_sound ((hsound h).unbind (hbinding.trans hsome) hnone)
        · intro s hs
          rw [usage_startBinding] at hs
          split at hs
          · cases hs
          · rw [usage_erase] at hs
            split at hs
            · cases hs
            · exact husage s hs

/-! ## Releasing -/

/-- What a release that succeeds does. -/
structure UnbindSpec (w : World) (t : ThreadId) (tok : Token) (w' : World) : Prop where
  frame : Local t w w'
  bindings : ∀ tok', (w'.thread t).binding? tok' =
    if tok' = tok then none else (w.thread t).binding? tok'
  sound : (w.thread t).Sound → (w'.thread t).Sound
  usage : ∀ s, (w'.thread t).usage s = some true → (w.thread t).usage s = some true

/-- A release that succeeds does what is said of it. -/
theorem unbindThread_ok {id? : Option InstanceId} (h : w.unbindThread t tok = .ok (id?, w')) :
    UnbindSpec w t tok w' := by
  unfold unbindThread at h
  dsimp only at h
  -- without a slot, or without a binding in it, there is nothing to release
  split at h
  · next hget =>
    obtain ⟨-, rfl⟩ := Prod.mk.inj (Except.ok.inj h)
    refine ⟨.refl _ _, ?_, id, fun _ => id⟩
    intro tok'
    split
    · next heq =>
      rw [heq, binding?, hget]
      rfl
    · rfl
  · next slot hget =>
    split at h
    · next hnone =>
      obtain ⟨-, rfl⟩ := Prod.mk.inj (Except.ok.inj h)
      refine ⟨.refl _ _, ?_, id, fun _ => id⟩
      intro tok'
      split
      · next heq =>
        rw [heq, binding?, hget]
        exact hnone
      · rfl
    · next b hsome =>
      have hb : (w.thread t).binding? tok = some b := by
        rw [binding?, hget]
        exact hsome
      obtain ⟨⟨slot', th'⟩, hend, h⟩ := bind_eq_ok.1 h
      obtain ⟨hnone, rfl⟩ := endBinding_ok hend
      obtain ⟨-, rfl⟩ := Prod.mk.inj (Except.ok.inj h)
      refine ⟨local_setThread _ _ _, ?_, ?_, ?_⟩
      · intro tok'
        rw [thread_setThread_self, binding?_insert]
        split
        · exact hnone
        · rfl
      · intro hsound
        rw [thread_setThread_self]
        exact hsound.unbind hb hnone
      · intro s hs
        rw [thread_setThread_self] at hs
        have husage := usage_erase (w.thread t) b.storage s
        change (({ w.thread t with storages := (w.thread t).storages.erase b.storage } :
          Thread).usage s) = some true at hs
        rw [husage] at hs
        split at hs
        · cases hs
        · exact hs

/-- A release fails only while the variables of the binding are in use. -/
theorem unbindThread_error {e : AccessError} (h : w.unbindThread t tok = .error e) :
    e = .reentrant ∧
      ∃ b, (w.thread t).binding? tok = some b ∧ (w.thread t).usage b.storage = some true := by
  unfold unbindThread at h
  dsimp only at h
  split at h
  · cases h
  · next slot hget =>
    split at h
    · cases h
    · next b hsome =>
      cases hend : w.endBinding (w.thread t) slot b with
      | error e' =>
        rw [hend] at h
        obtain rfl : e' = e := Except.error.inj h
        obtain ⟨rfl, hused⟩ := endBinding_error hend
        refine ⟨rfl, b, ?_, hused⟩
        rw [binding?, hget]
        exact hsome
      | ok r =>
        rw [hend] at h
        cases h

/-! ## Using a storage -/

/-- A handle leads to its instance while this is live. -/
theorem handleInstance_live {h : Handle} (hlive : w.isLive h.target = true) :
    w.handleInstance h = .ok h.target := by
  unfold handleInstance
  rw [if_pos hlive]

/-- A handle to a dead instance tells that it was destroyed. -/
theorem handleInstance_dead {h : Handle} (hdead : w.isLive h.target = false) :
    w.handleInstance h = .error (.instanceDestroyed h.target) := by
  unfold handleInstance
  rw [if_neg (Bool.eq_false_iff.1 hdead)]

/-- Only an instance that is live gives access to a binding, and only while it is not in use. -/
structure BorrowSpec (w : World) (t : ThreadId) (h : Handle) (w' : World) : Prop where
  frame : Local t w w'
  live : w.isLive h.target = true
  free : (w.thread t).usage h.storage = some false
  bindings : ∀ tok, (w'.thread t).binding? tok = (w.thread t).binding? tok
  usage : ∀ s, (w'.thread t).usage s = if s = h.storage then some true else (w.thread t).usage s
  nextStorage : (w'.thread t).nextStorage = (w.thread t).nextStorage

/-- A storage that is taken into use was there and not in use, and is marked as used. -/
theorem borrowed_of_borrow {h : Handle} (hok : w.borrow t h = .ok w') :
    ∃ st, (w.thread t).storages.get? h.storage = some st ∧ w.isLive h.target = true ∧
      st.borrowed = false ∧ w' = w.setThread t { w.thread t with
        storages := (w.thread t).storages.insert h.storage { st with borrowed := true } } := by
  unfold borrow at hok
  dsimp only at hok
  split at hok
  · cases hok
  · next st hget =>
    obtain ⟨_, hlive, hok⟩ := bind_eq_ok.1 hok
    have halive : w.isLive h.target = true := by
      unfold handleInstance at hlive
      split at hlive
      · assumption
      · cases hlive
    split at hok
    · cases hok
    · next hfree => exact ⟨st, hget, halive, Bool.eq_false_iff.2 hfree, (Except.ok.inj hok).symm⟩

/-- A closure on a binding is opened where its instance is live and its storage is free. -/
theorem borrow_ok {h : Handle} (hok : w.borrow t h = .ok w') : BorrowSpec w t h w' := by
  obtain ⟨st, hget, halive, hfree, rfl⟩ := borrowed_of_borrow hok
  refine ⟨local_setThread _ _ _, halive, ?_, ?_, ?_, ?_⟩
  · rw [usage, hget, Option.map_some, hfree]
  · intro tok
    rw [thread_setThread_self]
    rfl
  · intro s
    rw [thread_setThread_self]
    unfold usage
    rw [Table.get?_insert]
    split <;> rfl
  · rw [thread_setThread_self]

/-- Storages neither come nor go when one is taken into use. -/
theorem BorrowSpec.sound {h : Handle} (hb : BorrowSpec w t h w') (hs : (w.thread t).Sound) :
    (w'.thread t).Sound := by
  have hsome : ∀ s, ((w'.thread t).usage s).isSome = ((w.thread t).usage s).isSome := by
    intro s
    rw [hb.usage]
    split
    · next heq =>
      rw [heq, hb.free]
      rfl
    · rfl
  refine ⟨?_, ?_, ?_⟩
  · intro tok b hget
    rw [hsome]
    exact hs.stored tok b (hb.bindings tok ▸ hget)
  · intro tok tok' b b' hget hget'
    exact hs.apart tok tok' b b' (hb.bindings tok ▸ hget) (hb.bindings tok' ▸ hget')
  · intro s husage
    rw [hb.nextStorage]
    exact hs.drawn s (hsome s ▸ husage)

/-- A closure on a binding is refused for one of three reasons. -/
theorem borrow_error {h : Handle} {e : AccessError} (herr : w.borrow t h = .error e) :
    (e = .noActiveInstance ∧ (w.thread t).usage h.storage = none) ∨
      (e = .instanceDestroyed h.target ∧ w.isLive h.target = false) ∨
      (e = .reentrant ∧ (w.thread t).usage h.storage = some true) := by
  unfold borrow at herr
  dsimp only at herr
  split at herr
  · next hget =>
    refine .inl ⟨(Except.error.inj herr).symm, ?_⟩
    rw [usage, hget]
    rfl
  · next st hget =>
    unfold handleInstance at herr
    split at herr
    · change (if st.borrowed = true then _ else _) = _ at herr
      split at herr
      · next hused =>
        refine .inr (.inr ⟨(Except.error.inj herr).symm, ?_⟩)
        rw [usage, hget, Option.map_some, hused]
      · cases herr
    · next hdead =>
      exact .inr (.inl ⟨(Except.error.inj herr).symm, Bool.eq_false_iff.2 hdead⟩)

/-- What the end of a use does: the storage is free again, or goes if its binding has ended. -/
structure EndBorrowSpec (w : World) (t : ThreadId) (s : StorageId) (w' : World) : Prop where
  frame : Local t w w'
  bindings : ∀ tok, (w'.thread t).binding? tok = (w.thread t).binding? tok
  sound : (w.thread t).Sound → (w'.thread t).Sound
  usage : ∀ s', (w'.thread t).usage s' = some true → s' ≠ s ∧ (w.thread t).usage s' = some true

/-- The end of a closure does what is said of it. -/
theorem endBorrow_spec (w : World) (t : ThreadId) (s : StorageId) :
    EndBorrowSpec w t s (w.endBorrow t s) := by
  unfold endBorrow
  dsimp only
  generalize hth : ({ w.thread t with
    storages := (w.thread t).storages.modify s (fun st => { st with borrowed := false }) } :
      Thread) = th
  -- the storage is free now, and nothing else has changed yet
  have husage : ∀ s', th.usage s' =
      if s' = s then ((w.thread t).usage s').map fun _ => false else (w.thread t).usage s' := by
    intro s'
    rw [← hth]
    unfold usage
    rw [Table.get?_modify]
    split
    · rw [Option.map_map, Option.map_map]
      rfl
    · rfl
  refine ⟨local_setThread _ _ _, ?_, ?_, ?_⟩
  · intro tok
    rw [thread_setThread_self, binding?_tidy, ← hth]
    rfl
  · intro h
    rw [thread_setThread_self]
    have hsome : ∀ s', (th.usage s').isSome = ((w.thread t).usage s').isSome := by
      intro s'
      rw [husage]
      split
      · rw [Option.isSome_map]
      · rfl
    have hbinding : ∀ tok, th.binding? tok = (w.thread t).binding? tok := by
      intro tok
      rw [← hth]
      rfl
    have hnext : th.nextStorage = (w.thread t).nextStorage := by
      rw [← hth]
    refine Sound.tidy ⟨?_, ?_, ?_⟩
    · intro tok b hb
      rw [hsome]
      exact h.stored tok b (hbinding tok ▸ hb)
    · intro tok tok' b b' hb hb'
      exact h.apart tok tok' b b' (hbinding tok ▸ hb) (hbinding tok' ▸ hb')
    · intro s' hs'
      rw [hnext]
      exact h.drawn s' (hsome s' ▸ hs')
  · intro s' hs'
    rw [thread_setThread_self, usage_tidy, Option.filter_eq_some_iff, husage] at hs'
    obtain ⟨hs', -⟩ := hs'
    split at hs'
    · cases hu : (w.thread t).usage s' <;> rw [hu] at hs' <;> cases hs'
    · next hne => exact ⟨hne, hs'⟩

end World

end TieredState
