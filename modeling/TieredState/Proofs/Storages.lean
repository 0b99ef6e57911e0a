import TieredState.Proofs.Invariant

/-!
# Storages and the bindings that have them

`Thread.Sound` says that every binding has its storage. The other way round, a storage is there only
as long as a binding has it or a closure uses it: `Thread.Tidy`. Storages are drawn from a counter, so
a new binding never has the storage of an older one: `Thread.Advances`.

* `bindThread_cases`, `unbindThread_cases` — binding and releasing, with each outcome in full.
* `Thread.Upkeep` — what every operation on bindings does to a thread, but for the end of a use.
-/

namespace TieredState

namespace Thread

variable {th th' th'' : Thread} {tok : Token} {b : Binding}

/-- The variables of an ended binding to an instance, whose persistent fields wait for the next one. -/
def retired? (th : Thread) (tok : Token) (id : InstanceId) : Option ThreadVars :=
  (th.slots.get? tok).bind (·.retired.get? id)

/-- A storage that is not in use belongs to a binding. -/
def Tidy (th : Thread) : Prop := ∀ s, th.usage s = some false → th.owns s = true

/-- The thread has gone on: what it is bound to now it was bound to before, with the same storage, or
it has drawn a new storage for it. -/
structure Advances (th th' : Thread) : Prop where
  bindings : ∀ tok b, th'.binding? tok = some b →
    th.binding? tok = some b ∨ th.nextStorage ≤ b.storage.number
  nextStorage : th.nextStorage ≤ th'.nextStorage

/-- The storages that are in use stay so, and no other comes into use. -/
def KeepsUses (th th' : Thread) : Prop := ∀ s, th'.usage s = some true ↔ th.usage s = some true

namespace Advances

/-- A thread that stays as it is has gone on. -/
theorem refl (th : Thread) : Advances th th := ⟨fun _ _ => .inl, Nat.le_refl _⟩

theorem trans (h : Advances th th') (h' : Advances th' th'') : Advances th th'' where
  bindings tok b hb := by
    rcases h'.bindings tok b hb with hold | hnew
    · exact h.bindings tok b hold
    · exact .inr (Nat.le_trans h.nextStorage hnew)
  nextStorage := Nat.le_trans h.nextStorage h'.nextStorage

/-- Bindings may go. -/
theorem of_sub (hb : ∀ tok b, th'.binding? tok = some b → th.binding? tok = some b)
    (hn : th'.nextStorage = th.nextStorage) : Advances th th' :=
  ⟨fun tok b h => .inl (hb tok b h), Nat.le_of_eq hn.symm⟩

end Advances

theorem Tidy.congr (h : th.Tidy) (hb : ∀ tok, th'.binding? tok = th.binding? tok)
    (hu : ∀ s, th'.usage s = th.usage s) : th'.Tidy := by
  intro s hs
  rw [hu] at hs
  obtain ⟨tok, b, hbinding, hstorage⟩ := owns_iff.1 (h s hs)
  exact owns_iff.2 ⟨tok, b, (hb tok).trans hbinding, hstorage⟩

/-- A thread without storages is tidy. -/
theorem tidy_empty : ({} : Thread).Tidy := fun _ hs => by cases hs

/-- What was tidied is tidy. -/
theorem tidy_tidy (th : Thread) : th.tidy.Tidy := by
  intro s hs
  rw [usage_tidy, Option.filter_eq_some_iff] at hs
  obtain ⟨-, howns⟩ := hs
  rw [Bool.false_or] at howns
  exact howns

/-- To tidy a thread drops no storage that is in use. -/
theorem keepsUses_tidy (th : Thread) : KeepsUses th th.tidy := by
  intro s
  rw [usage_tidy, Option.filter_eq_some_iff]
  exact ⟨fun hs => hs.1, fun hs => ⟨hs, rfl⟩⟩

/-- What an operation on the bindings of a thread does to it. -/
structure Upkeep (th th' : Thread) : Prop where
  sound : th.Sound → th'.Sound
  advances : Advances th th'
  tidy : th.Tidy → th'.Tidy
  keepsUses : KeepsUses th th'

theorem Upkeep.refl (th : Thread) : Upkeep th th := ⟨id, .refl th, id, fun _ => .rfl⟩

theorem Upkeep.trans (h : Upkeep th th') (h' : Upkeep th' th'') :
    Upkeep th th'' where
  sound hs := h'.sound (h.sound hs)
  advances := h.advances.trans h'.advances
  tidy ht := h'.tidy (h.tidy ht)
  keepsUses s := (h'.keepsUses s).trans (h.keepsUses s)

/-- What is unchanged for bindings and storages in use. -/
theorem Upkeep.of_congr (hb : ∀ tok, th'.binding? tok = th.binding? tok)
    (hu : ∀ s, th'.usage s = th.usage s) (hn : th'.nextStorage = th.nextStorage) :
    Upkeep th th' where
  sound h := h.congr hb hu hn
  advances := .of_sub (fun tok _ h => (hb tok).symm.trans h) hn
  tidy h := h.congr hb hu
  keepsUses s := by rw [hu]

/-! ## Ending a binding -/

/-- To forget a process makes no binding. -/
theorem advances_dropSlot (th : Thread) (tok : Token) : Advances th (th.dropSlot tok) := by
  refine .of_sub (fun tok' b hb => ?_) rfl
  rw [binding?_dropSlot] at hb
  split at hb
  · cases hb
  · exact hb

/-- A binding that is not in use goes with its storage. -/
theorem Tidy.unbind (h : th.Tidy) (hb : th.binding? tok = some b) (slot : Slot) :
    ({ th with slots := th.slots.insert tok slot, storages := th.storages.erase b.storage } :
      Thread).Tidy := by
  intro s hs
  have husage := usage_erase th b.storage s
  change ({ th with storages := th.storages.erase b.storage } : Thread).usage s = some false at hs
  rw [husage] at hs
  split at hs
  · cases hs
  · next hne =>
    -- its owner is another binding, and so under another process
    obtain ⟨tok', b', hb', hstorage⟩ := owns_iff.1 (h s hs)
    have hother : tok' ≠ tok := by
      rintro rfl
      rw [hb] at hb'
      exact hne (hstorage ▸ congrArg Binding.storage (Option.some.inj hb').symm)
    have hbinding := binding?_insert th tok tok' slot
    rw [if_neg hother] at hbinding
    exact owns_iff.2 ⟨tok', b', hbinding.trans hb', hstorage⟩

/-- To drop a storage that is free changes no use. -/
theorem keepsUses_erase {slots : Table Token Slot} {s : StorageId} (hfree : th.usage s ≠ some true) :
    KeepsUses th { th with slots, storages := th.storages.erase s } := by
  intro s'
  have husage := usage_erase th s s'
  change ({ th with storages := th.storages.erase s } : Thread).usage s' = some true ↔ _
  rw [husage]
  split
  · next heq =>
    rw [heq]
    exact ⟨nofun, fun hs => absurd hs hfree⟩
  · exact .rfl

end Thread

namespace World

open Thread

variable {w w' : World} {t : ThreadId} {tok : Token} {id : InstanceId} {th : Thread}

/-! ## Binding -/

/-- A binding that ends is not in use. -/
theorem endBinding_free {slot : Slot} {b : Binding} {r : Slot × Thread}
    (h : w.endBinding th slot b = .ok r) : th.usage b.storage ≠ some true := by
  unfold endBinding at h
  intro hused
  obtain ⟨⟨vars, borrowed⟩, hget, hborrowed⟩ := Option.map_eq_some_iff.1 hused
  obtain rfl : borrowed = true := hborrowed
  rw [hget] at h
  cases h

/-- The slot of a binding that has ended. -/
def ended (w : World) (th : Thread) (slot : Slot) (b : Binding) : Slot where
  binding? := none
  retired :=
    if w.isLive b.target then
      slot.retired.insert b.target (((th.storages.get? b.storage).map (·.vars)).getD {})
    else slot.retired

/-- The end of a binding leaves its slot without a binding, and the thread without its storage. -/
theorem endBinding_eq {slot : Slot} {b : Binding} {r : Slot × Thread}
    (h : w.endBinding th slot b = .ok r) :
    r = (w.ended th slot b, { th with storages := th.storages.erase b.storage }) := by
  unfold endBinding at h
  split at h
  · cases h
  · exact (Except.ok.inj h).symm

/-- What binding comes to, for a thread whose slots are pruned. -/
inductive Rebound (w : World) (th : Thread) (tok : Token) (id : InstanceId) :
    Except AccessError Handle → Thread → Prop
  /-- A binding to the same instance is kept. -/
  | same {b : Binding} (hb : th.binding? tok = some b) (htarget : b.target = id) :
    Rebound w th tok id (.ok b) th
  /-- A binding that is in use cannot be ended. -/
  | refused {b : Binding} (hb : th.binding? tok = some b) (e : AccessError) :
    Rebound w th tok id (.error e) th
  | fresh (hb : th.binding? tok = none) :
    Rebound w th tok id (.ok (w.startBinding th tok ((th.slots.get? tok).getD {}) id).1)
      (w.startBinding th tok ((th.slots.get? tok).getD {}) id).2
  /-- A binding to another instance is ended first. -/
  | moved {b : Binding} (hb : th.binding? tok = some b) (htarget : b.target ≠ id)
    (hfree : th.usage b.storage ≠ some true) {th' : Thread}
    (hth' : th' = { th with storages := th.storages.erase b.storage }) :
    Rebound w th tok id
      (.ok (w.startBinding th' tok (w.ended th ((th.slots.get? tok).getD {}) b) id).1)
      (w.startBinding th' tok (w.ended th ((th.slots.get? tok).getD {}) b) id).2

/-- A thread is bound in one of a few ways, once its slots are pruned. -/
theorem bindThread_cases (w : World) (t : ThreadId) (tok : Token) (id : InstanceId) :
    ∃ th', Rebound w (w.pruneSlots (w.thread t)) tok id (w.bindThread t tok id).1 th' ∧
      (w.bindThread t tok id).2 = w.setThread t th' := by
  unfold bindThread
  generalize w.pruneSlots (w.thread t) = th
  dsimp only
  have hbinding : th.binding? tok = ((th.slots.get? tok).getD {}).binding? := by
    unfold binding?
    cases th.slots.get? tok <;> rfl
  split
  · next hnone => exact ⟨_, .fresh (hbinding.trans hnone), rfl⟩
  · next b hsome =>
    have hb : th.binding? tok = some b := hbinding.trans hsome
    split
    · next htarget => exact ⟨_, .same hb htarget, rfl⟩
    · next htarget =>
      split
      · exact ⟨_, .refused hb _, rfl⟩
      · next slot' th' hend =>
        have hfree := endBinding_free hend
        obtain ⟨rfl, rfl⟩ := Prod.mk.inj (endBinding_eq hend)
        exact ⟨_, .moved hb htarget hfree rfl, rfl⟩

/-- A bind is refused, or is to an instance that is live under a process that is. -/
theorem bind_cases (w : World) (t : ThreadId) (tok : Token) (id : InstanceId) :
    (∃ e, w.bind t tok id = (.error e, w)) ∨
      (∃ p, w.live tok = .ok p) ∧ w.isLive id = true ∧ w.bind t tok id = w.bindThread t tok id := by
  unfold World.bind
  split
  · exact .inl ⟨_, rfl⟩
  · next p hp =>
    split
    · exact .inl ⟨_, rfl⟩
    · split
      · exact .inl ⟨_, rfl⟩
      · next halive => exact .inr ⟨⟨p, hp⟩, checkAlive_ok.1 halive, rfl⟩

/-- A call to bind that succeeds has passed all checks. -/
theorem bind_ok {h : Handle} (hok : (w.bind t tok id).1 = .ok h) :
    (∃ p, w.live tok = .ok p) ∧ w.isLive id = true ∧ w.bind t tok id = w.bindThread t tok id := by
  rcases bind_cases w t tok id with ⟨e, heq⟩ | hbound
  · rw [heq] at hok
    cases hok
  · exact hbound

/-- A new binding comes with a new storage. -/
theorem advances_startBinding (w : World) (th : Thread) (tok : Token) (slot : Slot)
    (id : InstanceId) : Advances th (w.startBinding th tok slot id).2 where
  bindings tok' b hb := by
    rw [binding?_startBinding] at hb
    split at hb
    · obtain rfl := Option.some.inj hb
      exact .inr (Nat.le_refl _)
    · exact .inl hb
  nextStorage := Nat.le_succ _

/-- A new binding takes nothing from the others. -/
theorem tidy_startBinding {slot : Slot}
    (h : ∀ s, th.usage s = some false → ∃ tok' b, tok' ≠ tok ∧ th.binding? tok' = some b ∧
      b.storage = s) : (w.startBinding th tok slot id).2.Tidy := by
  intro s hs
  rw [usage_startBinding] at hs
  split at hs
  · next heq =>
    refine owns_iff.2 ⟨tok, (w.startBinding th tok slot id).1, ?_, heq.symm⟩
    rw [binding?_startBinding, if_pos rfl]
  · obtain ⟨tok', b, hne, hb, hstorage⟩ := h s hs
    refine owns_iff.2 ⟨tok', b, ?_, hstorage⟩
    rw [binding?_startBinding, if_neg hne, hb]

/-- A storage that is new was not in use. -/
theorem keepsUses_startBinding (hdrawn : ∀ s, (th.usage s).isSome → s.number < th.nextStorage)
    (tok : Token) (slot : Slot) (id : InstanceId) :
    KeepsUses th (w.startBinding th tok slot id).2 := by
  intro s
  rw [usage_startBinding]
  split
  · next heq =>
    -- the new storage was not drawn before
    refine ⟨nofun, fun hs => ?_⟩
    have hlt := hdrawn s (by rw [hs]; rfl)
    rw [heq] at hlt
    exact absurd hlt (Nat.lt_irrefl _)
  · exact .rfl

theorem upkeep_pruneSlots (w : World) (th : Thread) : Upkeep th (w.pruneSlots th) where
  sound := pruneSlots_sound w
  advances := by
    refine .of_sub (fun tok b hb => ?_) rfl
    rw [binding?_pruneSlots] at hb
    split at hb
    · cases hb
    · exact hb
  tidy _ := tidy_tidy _
  keepsUses :=
    keepsUses_tidy { th with slots := th.slots.filter fun tok _ => !w.isReleased tok }

/-- To forget a process is upkeep. -/
theorem upkeep_dropSlot (th : Thread) (tok : Token) : Upkeep th (th.dropSlot tok) where
  sound h := h.dropSlot tok
  advances := advances_dropSlot th tok
  tidy _ := tidy_tidy _
  keepsUses := keepsUses_tidy { th with slots := th.slots.erase tok }

/-- However binding ends, it is upkeep. -/
theorem Rebound.upkeep {r : Except AccessError Handle} {th' : Thread} (h : Rebound w th tok id r th')
    (hs : th.Sound) : Upkeep th th' := by
  cases h with
  | same hb htarget => exact .refl th
  | refused hb e => exact .refl th
  | fresh hb =>
    refine ⟨fun _ => ?_, advances_startBinding _ _ _ _ _, fun ht => ?_,
      keepsUses_startBinding hs.drawn _ _ _⟩
    -- putting the slot back where it was changes nothing
    · refine startBinding_sound (hs.congr (fun tok' => ?_) (fun _ => rfl) rfl)
      rw [binding?_insert]
      split
      · next heq =>
        rw [heq]
        unfold binding?
        cases th.slots.get? tok <;> rfl
      · rfl
    · refine tidy_startBinding fun s hfree => ?_
      obtain ⟨tok', b, hb', hstorage⟩ := owns_iff.1 (ht s hfree)
      refine ⟨tok', b, ?_, hb', hstorage⟩
      rintro rfl
      rw [hb] at hb'
      cases hb'
  | @moved b hb htarget hfree th₁ hth₁ =>
    subst hth₁
    have hadvances : Advances th { th with storages := th.storages.erase b.storage } :=
      .of_sub (fun _ _ hb => hb) rfl
    refine ⟨fun _ => startBinding_sound (hs.unbind hb rfl),
      hadvances.trans (advances_startBinding _ _ _ _ _), fun ht => ?_, ?_⟩
    · -- the storage that goes was the only one of the process
      refine tidy_startBinding fun s hs' => ?_
      rw [usage_erase] at hs'
      split at hs'
      · cases hs'
      · next hne =>
        obtain ⟨tok', b', hb', hstorage⟩ := owns_iff.1 (ht s hs')
        refine ⟨tok', b', ?_, hb', hstorage⟩
        rintro rfl
        rw [hb] at hb'
        exact hne (hstorage ▸ congrArg Binding.storage (Option.some.inj hb').symm)
    · intro s
      -- the storage that goes is not in use, and the new one was not drawn before
      refine (keepsUses_startBinding ?_ _ _ _ s).trans (keepsUses_erase hfree s)
      intro s' hsome
      rw [usage_erase] at hsome
      split at hsome
      · cases hsome
      · exact hs.drawn s' hsome

theorem upkeep_bind (hs : (w.thread t).Sound) (t' : ThreadId) (tok : Token) (id : InstanceId) :
    Upkeep (w.thread t) ((w.bind t' tok id).2.thread t) := by
  have hbindThread : Upkeep (w.thread t) ((w.bindThread t' tok id).2.thread t) := by
    obtain ⟨th', hrebound, heq⟩ := bindThread_cases w t' tok id
    rw [heq, thread_setThread]
    split
    · next ht =>
      subst ht
      exact (upkeep_pruneSlots w _).trans (hrebound.upkeep (pruneSlots_sound w hs))
    · exact .refl _
  unfold World.bind
  split
  · exact .refl _
  · split
    · exact .refl _
    · split
      · exact .refl _
      · exact hbindThread

/-! ## Other operations -/

/-- The thread whose binding under a process has ended by a release. -/
def unbound (w : World) (th : Thread) (tok : Token) (b : Binding) : Thread :=
  { th with
    slots := th.slots.insert tok (w.pruneRetired (w.ended th ((th.slots.get? tok).getD {}) b))
    storages := th.storages.erase b.storage }

/-- Releasing, in full. -/
theorem unbindThread_cases {id? : Option InstanceId} (h : w.unbindThread t tok = .ok (id?, w')) :
    ((w.thread t).binding? tok = none ∧ w' = w) ∨
      ∃ b, (w.thread t).binding? tok = some b ∧ (w.thread t).usage b.storage ≠ some true ∧
        w' = w.setThread t (w.unbound (w.thread t) tok b) := by
  unfold unbindThread at h
  dsimp only at h
  unfold unbound binding?
  split at h
  · next hget =>
    rw [hget]
    exact .inl ⟨rfl, (Prod.mk.inj (Except.ok.inj h)).2.symm⟩
  · next slot hget =>
    rw [hget]
    split at h
    · next hnone => exact .inl ⟨hnone, (Prod.mk.inj (Except.ok.inj h)).2.symm⟩
    · next b hsome =>
      obtain ⟨⟨slot', th'⟩, hend, h⟩ := bind_eq_ok.1 h
      have hfree := endBinding_free hend
      obtain ⟨rfl, rfl⟩ := Prod.mk.inj (endBinding_eq hend)
      exact .inr ⟨b, hsome, hfree, (Prod.mk.inj (Except.ok.inj h)).2.symm⟩

/-- A binding that is released is gone, and the others stay. -/
theorem binding?_unbound (w : World) (th : Thread) (tok tok' : Token) (b : Binding) :
    (w.unbound th tok b).binding? tok' = if tok' = tok then none else th.binding? tok' :=
  binding?_insert th tok tok' _

/-- To end a binding is upkeep. -/
theorem upkeep_unbindThread {id? : Option InstanceId} (h : w.unbindThread t tok = .ok (id?, w')) :
    Upkeep (w.thread t) (w'.thread t) := by
  rcases unbindThread_cases h with ⟨-, rfl⟩ | ⟨b, hb, hfree, rfl⟩
  · exact .refl _
  · rw [thread_setThread_self]
    refine ⟨fun hs => hs.unbind hb rfl, .of_sub (fun tok' b' hb' => ?_) rfl, fun ht => ht.unbind hb _,
      keepsUses_erase hfree⟩
    rw [binding?_unbound] at hb'
    split at hb'
    · cases hb'
    · exact hb'

/-- Threads other than the one that changes stay as they are. -/
theorem Local.upkeep (h : Local t w w') (ht : Upkeep (w.thread t) (w'.thread t)) (t' : ThreadId) :
    Upkeep (w.thread t') (w'.thread t') := by
  by_cases heq : t' = t
  · exact heq ▸ ht
  · rw [h.others t' heq]
    exact .refl _

theorem upkeep_release {id? : Option InstanceId} (h : w.release t tok = .ok (id?, w'))
    (t' : ThreadId) : Upkeep (w.thread t') (w'.thread t') := by
  refine (local_release h).upkeep ?_ t'
  obtain ⟨p, -, hu⟩ := bind_eq_ok.1 h
  exact upkeep_unbindThread hu

theorem upkeep_tearDown (w : World) (t : ThreadId) (tok : Token) (id : InstanceId) (t' : ThreadId) :
    Upkeep (w.thread t') ((w.tearDown t tok id).thread t') := by
  rw [show w.thread t' = (w.marked id).thread t' from rfl]
  unfold tearDown
  rw [show (w.modifyInstance id fun i => { i with alive := false }) = w.marked id from rfl]
  dsimp only
  split
  · split
    · next hu => exact (unbindThread_ok hu).frame.upkeep (upkeep_unbindThread hu) t'
    · exact .refl _
  · exact .refl _

theorem upkeep_releaseKey (w : World) (t : ThreadId) (tok : Token) (t' : ThreadId) :
    Upkeep (w.thread t') ((w.releaseKey t tok).thread t') := by
  unfold releaseKey
  rw [thread_setThread]
  split
  · next heq =>
    rw [heq]
    exact upkeep_dropSlot _ tok
  · exact .refl _

/-- A storage that is taken into use belongs to its binding as before. -/
theorem advances_borrow {h : Handle} (hb : BorrowSpec w t h w') (t' : ThreadId) :
    Advances (w.thread t') (w'.thread t') ∧ ((w.thread t').Tidy → (w'.thread t').Tidy) := by
  by_cases heq : t' = t
  · subst heq
    refine ⟨.of_sub (fun tok b hget => (hb.bindings tok).symm.trans hget) hb.nextStorage, ?_⟩
    intro ht s hs
    rw [hb.usage] at hs
    split at hs
    · cases hs
    · obtain ⟨tok, b, hget, hstorage⟩ := owns_iff.1 (ht s hs)
      exact owns_iff.2 ⟨tok, b, (hb.bindings tok).trans hget, hstorage⟩
  · rw [hb.frame.others t' heq]
    exact ⟨.refl _, id⟩

/-- The end of a use is the end of that use only. -/
theorem usage_endBorrow_of_ne {s s' : StorageId} {t' : ThreadId} (hne : (t', s') ≠ (t, s))
    (hs' : (w.thread t').usage s' = some true) :
    ((w.endBorrow t s).thread t').usage s' = some true := by
  unfold endBorrow
  rw [thread_setThread]
  split
  · next heq =>
    subst heq
    refine (keepsUses_tidy _ s').2 ?_
    have hother : s' ≠ s := by
      rintro rfl
      exact hne rfl
    unfold usage
    rw [Table.get?_modify, if_neg hother]
    exact hs'
  · exact hs'

/-- When a closure ends, its storage is kept for a binding or goes. -/
theorem advances_endBorrow (w : World) (t : ThreadId) (s : StorageId) (t' : ThreadId) :
    Advances (w.thread t') ((w.endBorrow t s).thread t') ∧
      ((w.thread t').Tidy → ((w.endBorrow t s).thread t').Tidy) := by
  unfold endBorrow
  rw [thread_setThread]
  split
  · next heq =>
    subst heq
    exact ⟨.of_sub (fun _ _ hb => hb) rfl, fun _ => tidy_tidy _⟩
  · exact ⟨.refl _, id⟩

/-- Calm changes are upkeep for every thread. -/
theorem Calm.upkeep (h : Calm w w') (t : ThreadId) : Upkeep (w.thread t) (w'.thread t) :=
  .of_congr (h.bindings t) (h.usage t) (h.nextStorage t)

theorem upkeep_sweep (s : Session) (t : ThreadId) (tokens : List Token) (ids : List InstanceId)
    (t' : ThreadId) : Upkeep (s.world.thread t') ((s.sweep t tokens ids).world.thread t') := by
  rw [Session.thread_sweep]
  split
  · next heq =>
    rw [heq]
    exact List.foldlRecOn (motive := Upkeep (s.world.thread t)) _ _ (.refl _)
      fun th hth tok _ => hth.trans (upkeep_dropSlot th tok)
  · exact .refl _

end World

end TieredState
