import TieredState.Proofs.SlotTurns

/-!
# What is done to a thread spares the rest of it

All processes share what a thread keeps: one table of slots, one of storages, and one counter for them.
`Spares` says what an operation leaves alone of it: the slots of other processes, and the variables in
every storage that was there already. It is proved operation by operation, for the thread that acts and
for every other one.
-/

namespace TieredState

namespace Thread

/-- What is kept is not what is given up. -/
theorem ne_of_kept {kept : Token → Prop} {tok tok' : Token} (htok : ¬ kept tok) (hkept : kept tok') :
    tok' ≠ tok := by
  rintro rfl
  exact htok hkept

/-- The slots of the processes `kept` are as they were, and so are the variables in the storages `still`
as far as these were drawn before and are there still. -/
structure Spares (kept : Token → Prop) (still : StorageId → Prop) (th th' : Thread) : Prop where
  slots : ∀ tok, kept tok → th'.slots.get? tok = th.slots.get? tok
  nextStorage : th.nextStorage ≤ th'.nextStorage
  vars : ∀ s st', still s → s.number < th.nextStorage → th'.storages.get? s = some st' →
    ∃ st, th.storages.get? s = some st ∧ st'.vars = st.vars

variable {th th' th'' : Thread} {kept : Token → Prop} {still : StorageId → Prop} {tok : Token}

namespace Spares

theorem of_eq (h : th' = th) : Spares kept still th th' where
  slots _ _ := by rw [h]
  nextStorage := Nat.le_of_eq (by rw [h])
  vars _ st' _ _ hs := ⟨st', h ▸ hs, rfl⟩

theorem refl (th : Thread) : Spares kept still th th := of_eq rfl

theorem trans (h : Spares kept still th th') (h' : Spares kept still th' th'') :
    Spares kept still th th'' where
  slots tok htok := (h'.slots tok htok).trans (h.slots tok htok)
  nextStorage := Nat.le_trans h.nextStorage h'.nextStorage
  vars s st'' hstill hdrawn hs := by
    -- a storage drawn before the first change was also drawn before the second
    obtain ⟨st', hs', hvars'⟩ :=
      h'.vars s st'' hstill (Nat.lt_of_lt_of_le hdrawn h.nextStorage) hs
    obtain ⟨st, hs, hvars⟩ := h.vars s st' hstill hdrawn hs'
    exact ⟨st, hs, hvars'.trans hvars⟩

/-- Storages are dropped at most. -/
theorem of_sub (hslots : ∀ tok, kept tok → th'.slots.get? tok = th.slots.get? tok)
    (hn : th'.nextStorage = th.nextStorage)
    (hsub : ∀ s st, th'.storages.get? s = some st → th.storages.get? s = some st) :
    Spares kept still th th' :=
  ⟨hslots, Nat.le_of_eq hn.symm, fun s st' _ _ hs => ⟨st', hsub s st' hs, rfl⟩⟩

/-- To tidy a thread spares its slots, and the variables that are left. -/
theorem tidy (th : Thread) : Spares kept still th th.tidy := by
  refine of_sub (fun _ _ => rfl) rfl fun s st hs => ?_
  unfold Thread.tidy at hs
  rw [Table.get?_filter, Option.filter_eq_some_iff] at hs
  exact hs.1

/-- Another slot may be dropped. -/
theorem dropSlot (htok : ¬ kept tok) (th : Thread) : Spares kept still th (th.dropSlot tok) := by
  have herase : Spares kept still th { th with slots := th.slots.erase tok } := by
    refine of_sub (fun tok' hkept => ?_) rfl fun _ _ => id
    rw [Table.get?_erase, if_neg (ne_of_kept htok hkept)]
  exact herase.trans (tidy _)

/-- One storage is changed, but for its variables. -/
theorem modify {f : ThreadStorage → ThreadStorage} (hf : ∀ st, (f st).vars = st.vars) (th : Thread)
    (s : StorageId) :
    Spares kept still th { th with storages := th.storages.modify s f } where
  slots _ _ := rfl
  nextStorage := Nat.le_refl _
  vars s' st' _ _ hs := by
    rw [Table.get?_modify] at hs
    split at hs
    · obtain ⟨st, hst, rfl⟩ := Option.map_eq_some_iff.1 hs
      exact ⟨st, hst, hf st⟩
    · exact ⟨st', hs, rfl⟩

end Spares

end Thread

namespace World

open Thread

variable {w w' : World} {t x : ThreadId} {tok : Token} {id : InstanceId} {th th' : Thread}
  {kept : Token → Prop} {still : StorageId → Prop}

/-! ## Bindings -/

theorem spares_pruneSlots (hrel : ∀ tok, kept tok → w.isReleased tok = false) (th : Thread) :
    Spares kept still th (w.pruneSlots th) := by
  have hprune : Spares kept still th
      { th with slots := th.slots.filter fun tok _ => !w.isReleased tok } := by
    refine .of_sub (fun tok hkept => ?_) rfl fun _ _ => id
    rw [Table.get?_filter, hrel tok hkept]
    cases th.slots.get? tok <;> rfl
  exact hprune.trans (.tidy _)

/-- A new storage is drawn. -/
theorem spares_startBinding (htok : ¬ kept tok) (th : Thread) (slot : Slot) (id : InstanceId) :
    Spares kept still th (w.startBinding th tok slot id).2 where
  slots tok' hkept := slots_startBinding_ne (ne_of_kept htok hkept) slot id
  nextStorage := Nat.le_succ _
  vars s st' _ hdrawn hs := by
    -- the storage of the new binding was not there before
    have hne : s ≠ ⟨th.nextStorage⟩ := by
      rintro rfl
      exact Nat.lt_irrefl _ hdrawn
    rw [storages_startBinding, if_neg hne] at hs
    exact ⟨st', hs, rfl⟩

/-- Another binding may be released. -/
theorem spares_unbound (htok : ¬ kept tok) (th : Thread) (b : Binding) :
    Spares kept still th (w.unbound th tok b) := by
  refine .of_sub (fun tok' hkept => slots_unbound_ne (ne_of_kept htok hkept) b) rfl ?_
  intro s st hs
  have hs : (th.storages.erase b.storage).get? s = some st := hs
  rw [Table.get?_erase] at hs
  split at hs
  · cases hs
  · exact hs

/-- Another binding may be made, or fail to be made. -/
theorem Rebound.spares {r : Except AccessError Handle} (h : Rebound w th tok id r th')
    (htok : ¬ kept tok) : Spares kept still th th' := by
  cases h with
  | same hb htarget => exact .refl _
  | refused hb e => exact .refl _
  | fresh hb => exact spares_startBinding htok _ _ _
  | moved hb htarget hfree hth =>
    refine Spares.trans ?_ (spares_startBinding htok _ _ _)
    rw [hth]
    refine .of_sub (fun _ _ => rfl) rfl fun s st hs => ?_
    rw [Table.get?_erase] at hs
    split at hs
    · cases hs
    · exact hs

/-- What is done on one thread does nothing to another. -/
theorem Local.spares (hl : Local t w w')
    (h : x = t → Spares kept still (w.thread x) (w'.thread x)) :
    Spares kept still (w.thread x) (w'.thread x) := by
  by_cases heq : x = t
  · exact h heq
  · exact .of_eq (hl.others x heq)

/-- A thread that is written spares what it keeps if it is written so. -/
theorem spares_setThread (h : x = t → Spares kept still (w.thread t) th) :
    Spares kept still (w.thread x) ((w.setThread t th).thread x) := by
  refine (local_setThread w t th).spares fun heq => ?_
  subst heq
  rw [thread_setThread_self]
  exact h rfl

theorem spares_bind (htok : x = t → ¬ kept tok)
    (hrel : x = t → ∀ tok, kept tok → w.isReleased tok = false) (id : InstanceId) :
    Spares kept still (w.thread x) ((w.bind t tok id).2.thread x) := by
  refine (local_bind w t tok id).spares ?_
  rintro rfl
  rcases bind_cases w x tok id with ⟨e, hrefused⟩ | ⟨-, -, hbinds⟩
  · rw [hrefused]
    exact .refl _
  · obtain ⟨th', hrebound, hw⟩ := bindThread_cases w x tok id
    rw [hbinds, hw, thread_setThread_self]
    exact (spares_pruneSlots (hrel rfl) _).trans (hrebound.spares (htok rfl))

/-- The end of another binding spares the thread. -/
theorem spares_unbindThread {id? : Option InstanceId} (h : w.unbindThread t tok = .ok (id?, w'))
    (htok : x = t → ¬ kept tok) : Spares kept still (w.thread x) (w'.thread x) := by
  refine (unbindThread_ok h).frame.spares ?_
  rintro rfl
  rcases unbindThread_cases h with ⟨-, rfl⟩ | ⟨b, -, -, rfl⟩
  · exact .refl _
  · rw [thread_setThread_self]
    exact spares_unbound (htok rfl) _ b

theorem spares_release {id? : Option InstanceId} (h : w.release t tok = .ok (id?, w'))
    (htok : x = t → ¬ kept tok) : Spares kept still (w.thread x) (w'.thread x) := by
  obtain ⟨_, -, hunbind⟩ := bind_eq_ok.1 h
  exact spares_unbindThread hunbind htok

theorem spares_tearDown (htok : x = t → ¬ kept tok) (id : InstanceId) :
    Spares kept still (w.thread x) ((w.tearDown t tok id).thread x) := by
  rw [show w.thread x = (w.marked id).thread x from rfl]
  unfold tearDown
  rw [show (w.modifyInstance id fun i => { i with alive := false }) = w.marked id from rfl]
  dsimp only
  split
  · split
    · next hunbind => exact spares_unbindThread hunbind htok
    · exact .refl _
  · exact .refl _

theorem spares_releaseKey (htok : x = t → ¬ kept tok) :
    Spares kept still (w.thread x) ((w.releaseKey t tok).thread x) :=
  spares_setThread (w := w.modifyProcess tok fun p => { p with released := true })
    fun heq => .dropSlot (htok heq) _

/-! ## Closures -/

theorem spares_borrow {h : Handle} (hb : w.borrow t h = .ok w') :
    Spares kept still (w.thread x) (w'.thread x) := by
  obtain ⟨st, hst, -, -, rfl⟩ := borrowed_of_borrow hb
  refine spares_setThread fun _ => ⟨fun _ _ => rfl, Nat.le_refl _, fun s st' _ _ hs => ?_⟩
  rw [Table.get?_insert] at hs
  split at hs
  · next heq =>
    rw [heq]
    exact ⟨st, hst, by rw [← Option.some.inj hs]⟩
  · exact ⟨st', hs, rfl⟩

theorem spares_endBorrow (s : StorageId) :
    Spares kept still (w.thread x) ((w.endBorrow t s).thread x) :=
  spares_setThread fun _ =>
    (Spares.modify (f := fun st => { st with borrowed := false }) (fun _ => rfl) _ s).trans (.tidy _)

/-! ## Processes that go -/

/-- A sweep drops the slots of processes that go. -/
theorem spares_sweep {s : Session} {tokens : List Token} {ids : List InstanceId}
    (h : x = t → ∀ tok, kept tok →
      ((s.sweep t tokens ids).world.processes.get? tok).isSome = true) :
    Spares kept still (s.world.thread x) ((s.sweep t tokens ids).world.thread x) := by
  rw [Session.thread_sweep]
  split
  · next heq =>
    subst heq
    refine List.foldlRecOn (motive := Spares kept still (s.world.thread x)) _ _ (.refl _)
      fun th hth tok hlost => hth.trans (.dropSlot (fun hkept => ?_) th)
    -- the process of a slot that is dropped goes too
    have hthere := h rfl tok hkept
    rw [Session.processes_sweep, if_pos hlost] at hthere
    cases hthere
  · exact .refl _

end World

namespace Session

open World Thread

variable {s s' : Session} {ctx : Context} {t x : ThreadId} {kept : Token → Prop}
  {still : StorageId → Prop}

theorem spares_undo (s : Session) (b : Body) :
    Spares kept still (s.world.thread x) ((s.undo b).world.thread x) := by
  unfold undo
  split
  · exact spares_setThread fun _ => .of_sub (fun _ _ => rfl) rfl fun _ _ => id
  · exact spares_endBorrow _
  · exact .refl _
  · exact .refl _

theorem spares_unwind (s : Session) (stack : List Frame) :
    Spares kept still (s.world.thread x) ((Machine.unwind s stack).1.world.thread x) :=
  Machine.unwind_induction
    (P := fun s' _ => Spares kept still (s.world.thread x) (s'.world.thread x))
    (fun s' b _ h => h.trans (spares_undo s' b)) (fun _ _ _ _ h => h) (.refl _)

theorem spares_entered {steps : List Step} {b : Body} (h : s.Entered ctx steps b s') :
    Spares kept still (s.world.thread x) (s'.world.thread x) := by
  cases h with
  | lock focus tokens ids htake =>
    obtain ⟨held, -, rfl⟩ := take_ok htake
    exact spares_setThread fun _ => .of_sub (fun _ _ => rfl) rfl fun _ _ => id
  | storage tokens hborrow => exact spares_borrow hborrow
  | attempt => exact .refl _

/-- The end of an operation on another process spares the thread. -/
theorem Finishes.spares {d : Dispatch} {p : Progress} (h : s.Finishes d p)
    (htok : x = d.thread → ¬ kept d.process) :
    Spares kept still (s.world.thread x) (p.session.world.thread x) := by
  cases h with
  | create htask =>
    refine .of_eq ?_
    show (s.keepInstance _ d.target).world.thread x = _
    rw [world_keepInstance]
  | destroy htask | next htask => exact spares_tearDown htok d.target
  | shutdown htask => exact (spares_tearDown htok d.target).trans (spares_releaseKey htok)

end Session

end TieredState
