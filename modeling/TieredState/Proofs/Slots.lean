import TieredState.Proofs.Ages

/-!
# What waits in a slot

A thread keeps a slot for each process: its binding, and the variables of ended bindings that wait for
the next binding to the same instance. Most of what happens to a thread leaves a slot alone, or takes
from it what is of no use any more (`Leaves`). Only a bind and a release put something into it
(`Recalls`): the variables of the binding that they end.

* `recalls_bindThread`, `recalls_unbindThread` — what binding and releasing do to a slot.
* `leaves_tearDown`, `leaves_releaseKey`, `leaves_sweep` — what the end of instances and processes
  does.
-/

namespace TieredState

namespace Thread

variable {th th' : Thread} {tok tok' : Token} {id : InstanceId} {b : Binding}

/-- The binding under a process that a thread had and has no more. -/
def lost? (th th' : Thread) (tok : Token) : Option Binding :=
  (th.binding? tok).filter fun b => decide (th'.binding? tok ≠ some b)

/-- A binding is lost if it was there and is there no more. -/
theorem lost?_eq_some : th.lost? th' tok = some b ↔
    th.binding? tok = some b ∧ th'.binding? tok ≠ some b := by
  unfold lost?
  rw [Option.filter_eq_some_iff, decide_eq_true_eq]

/-- A binding that is gone, or another one by now, is lost. -/
theorem lost?_of_binding (hb : th.binding? tok = some b) (hb' : th'.binding? tok ≠ some b) :
    th.lost? th' tok = some b :=
  lost?_eq_some.2 ⟨hb, hb'⟩

/-- Nothing is lost where the binding stays. -/
theorem lost?_of_eq (h : th'.binding? tok = th.binding? tok) : th.lost? th' tok = none := by
  refine Option.eq_none_iff_forall_ne_some.2 fun b hb => ?_
  obtain ⟨hold, hnew⟩ := lost?_eq_some.1 hb
  exact hnew (h.trans hold)

/-- Nothing is lost where there was no binding. -/
theorem lost?_of_none (hb : th.binding? tok = none) : th.lost? th' tok = none := by
  unfold lost?
  rw [hb]
  rfl

/-- The variables in the storage of a binding. -/
def varsOf (th : Thread) (b : Binding) : ThreadVars :=
  ((th.storages.get? b.storage).map (·.vars)).getD {}

theorem binding?_congr (h : th'.slots.get? tok = th.slots.get? tok) :
    th'.binding? tok = th.binding? tok := by
  unfold binding?
  rw [h]

theorem retired?_congr (h : th'.slots.get? tok = th.slots.get? tok) (id : InstanceId) :
    th'.retired? tok id = th.retired? tok id := by
  unfold retired?
  rw [h]

/-- In a slot that is not there nothing waits. -/
theorem retired?_getD (th : Thread) (tok : Token) (id : InstanceId) :
    ((th.slots.get? tok).getD {}).retired.get? id = th.retired? tok id := by
  unfold retired?
  cases th.slots.get? tok <;> rfl

/-- What waits after a slot is written waits in this slot. -/
theorem retired?_insert (th : Thread) (tok tok' : Token) (slot : Slot) (id : InstanceId) :
    ({ th with slots := th.slots.insert tok slot } : Thread).retired? tok' id =
      if tok' = tok then slot.retired.get? id else th.retired? tok' id := by
  unfold retired?
  rw [Table.get?_insert]
  split <;> rfl

end Thread

namespace World

open Thread

variable {w w₁ w' : World} {th th₁ th' : Thread} {t : ThreadId} {tok tok' : Token} {id : InstanceId}

/-! ## Slots that are left alone -/

/-- The thread keeps for a process nothing but what it kept, and everything that is still of use: for a
process whose bindings are not void, what has to do with a live instance. The world is the one
afterwards. -/
structure Leaves (w' : World) (th th' : Thread) (tok : Token) : Prop where
  bindings : ∀ b, th'.binding? tok = some b → th.binding? tok = some b
  retired : ∀ id v, th'.retired? tok id = some v → th.retired? tok id = some v
  kept : ∀ id, w'.isReleased tok = false → w'.isLive id = true →
    (∀ b, th.binding? tok = some b → b.target = id → th'.binding? tok = some b) ∧
      th'.retired? tok id = th.retired? tok id

namespace Leaves

/-- A thread leaves alone what it keeps for a process if its slot stays. -/
theorem of_slot (h : th'.slots.get? tok = th.slots.get? tok) : Leaves w' th th' tok where
  bindings _ hb := (binding?_congr h).symm.trans hb
  retired id _ hv := (retired?_congr h id).symm.trans hv
  kept id _ _ := ⟨fun _ hb _ => (binding?_congr h).trans hb, retired?_congr h id⟩

/-- The slot of a process whose bindings are void may go. -/
theorem of_void (h : th'.slots.get? tok = none) (hvoid : w'.isReleased tok = true) :
    Leaves w' th th' tok where
  bindings b hb := by
    unfold binding? at hb
    rw [h] at hb
    cases hb
  retired id v hv := by
    unfold Thread.retired? at hv
    rw [h] at hv
    cases hv
  kept id hrel _ := by
    rw [hvoid] at hrel
    cases hrel

/-- What is left alone twice is left alone, as long as nothing is void or dead in between and no
more at the end. -/
theorem trans (h : Leaves w₁ th th₁ tok) (h' : Leaves w' th₁ th' tok)
    (hrel : w'.isReleased tok = false → w₁.isReleased tok = false)
    (hlive : ∀ id, w'.isLive id = true → w₁.isLive id = true) : Leaves w' th th' tok where
  bindings b hb := h.bindings b (h'.bindings b hb)
  retired id v hv := h.retired id v (h'.retired id v hv)
  kept id hrel' hlive' := by
    obtain ⟨hb, hv⟩ := h.kept id (hrel hrel') (hlive id hlive')
    obtain ⟨hb', hv'⟩ := h'.kept id hrel' hlive'
    exact ⟨fun b hget htarget => hb' b (hb b hget htarget) htarget, hv'.trans hv⟩

end Leaves

/-- Only the key that is released is released. -/
theorem isReleased_releaseKey (w : World) (t : ThreadId) (tok tok' : Token) :
    (w.releaseKey t tok).isReleased tok' = (decide (tok' = tok) || w.isReleased tok') := by
  have hget : (w.releaseKey t tok).processes.get? tok' = if tok' = tok then
      (w.processes.get? tok').map (fun p => { p with released := true }) else w.processes.get? tok' :=
    get?_modifyProcess _ _ _ tok'
  unfold isReleased
  rw [hget]
  by_cases heq : tok' = tok
  · rw [if_pos heq]
    cases w.processes.get? tok' <;> simp [heq]
  · rw [if_neg heq]
    simp [heq]

/-- The release of a key takes from each thread at most what it keeps for that process. -/
theorem leaves_releaseKey (w : World) (t : ThreadId) (tok : Token) (t' : ThreadId) (tok' : Token) :
    Leaves (w.releaseKey t tok) (w.thread t') ((w.releaseKey t tok).thread t') tok' := by
  have hthread : (w.releaseKey t tok).thread t' =
      if t' = t then (w.thread t).dropSlot tok else w.thread t' := thread_setThread _ _ _ _
  have hslot := slots_dropSlot (w.thread t) tok tok'
  by_cases ht : t' = t
  · rw [if_pos ht] at hthread
    rw [hthread, ht]
    by_cases htok : tok' = tok
    · rw [if_pos htok] at hslot
      exact .of_void hslot (by rw [isReleased_releaseKey, htok]; simp)
    · rw [if_neg htok] at hslot
      exact .of_slot hslot
  · rw [if_neg ht] at hthread
    rw [hthread]
    exact .of_slot rfl

/-- The sweep takes from each thread at most what it keeps for processes that are gone. -/
theorem leaves_sweep (s : Session) (t : ThreadId) (tokens : List Token) (ids : List InstanceId)
    (t' : ThreadId) (tok : Token) :
    Leaves (s.sweep t tokens ids).world (s.world.thread t') ((s.sweep t tokens ids).world.thread t')
      tok := by
  rw [Session.thread_sweep]
  split
  · next heq =>
    subst heq
    have hslot := slots_dropSlots (s.world.thread t') (s.lost tokens) tok
    by_cases hlost : tok ∈ s.lost tokens
    · rw [if_pos hlost] at hslot
      refine .of_void hslot ?_
      unfold isReleased
      rw [Session.processes_sweep, if_pos hlost]
    · rw [if_neg hlost] at hslot
      exact .of_slot hslot
  · exact .of_slot rfl

/-! ## The end of a binding -/

/-- What waits for instances that are dead is dropped. -/
theorem get?_pruneRetired (w : World) (slot : Slot) (id : InstanceId) :
    (w.pruneRetired slot).retired.get? id = (slot.retired.get? id).filter fun _ => w.isLive id :=
  Table.get?_filter _ _ _

/-- What is live passes for live. -/
theorem filter_isLive (hlive : w.isLive id = true) (o : Option ThreadVars) :
    (o.filter fun _ => w.isLive id) = o := by
  rw [hlive]
  cases o <;> rfl

/-- What waits for an instance that is live is kept. -/
theorem get?_pruneRetired_of_live (hlive : w.isLive id = true) (slot : Slot) :
    (w.pruneRetired slot).retired.get? id = slot.retired.get? id := by
  rw [get?_pruneRetired, filter_isLive hlive]

/-- Where a binding ends while its instance is live, its variables wait for the next one. -/
theorem get?_ended (w : World) (th : Thread) (slot : Slot) (b : Binding) (id : InstanceId) :
    (w.ended th slot b).retired.get? id =
      if w.isLive b.target = true ∧ id = b.target then some (th.varsOf b)
      else slot.retired.get? id := by
  unfold ended
  dsimp only
  by_cases hlive : w.isLive b.target = true
  · rw [if_pos hlive, Table.get?_insert]
    by_cases heq : id = b.target
    · rw [if_pos heq, if_pos ⟨hlive, heq⟩]
      rfl
    · rw [if_neg heq, if_neg fun h => heq h.2]
  · rw [if_neg hlive, if_neg fun h => hlive h.1]

/-- What waits in a slot after a binding has ended waited before, or is for its instance. -/
theorem retired?_of_ended {b : Binding} {v : ThreadVars}
    (h : (w.ended th ((th.slots.get? tok).getD {}) b).retired.get? id = some v) :
    th.retired? tok id = some v ∨ b.target = id := by
  rw [get?_ended] at h
  split at h
  · next heq => exact .inr heq.2.symm
  · rw [retired?_getD] at h
    exact .inl h

/-- For a live instance, the slot keeps the variables of the binding that has ended if it was to that
instance, and what it had for the instance if it was not. -/
theorem get?_ended_of_live (hlive : w.isLive id = true) (b : Binding) :
    b.target = id ∧
        (w.ended th ((th.slots.get? tok).getD {}) b).retired.get? id = some (th.varsOf b) ∨
      b.target ≠ id ∧
        (w.ended th ((th.slots.get? tok).getD {}) b).retired.get? id = th.retired? tok id := by
  rw [get?_ended]
  by_cases htarget : b.target = id
  · rw [if_pos ⟨htarget ▸ hlive, htarget.symm⟩]
    exact .inl ⟨htarget, rfl⟩
  · rw [if_neg fun heq => htarget heq.2.symm, retired?_getD]
    exact .inr ⟨htarget, rfl⟩

/-- After a release the variables wait in the slot, for as long as the instance is live. -/
theorem retired?_unbound (w : World) (th : Thread) (tok : Token) (b : Binding) (id : InstanceId) :
    (w.unbound th tok b).retired? tok id =
      ((w.ended th ((th.slots.get? tok).getD {}) b).retired.get? id).filter fun _ => w.isLive id := by
  have hinsert := retired?_insert th tok tok
    (w.pruneRetired (w.ended th ((th.slots.get? tok).getD {}) b)) id
  rw [if_pos rfl, get?_pruneRetired] at hinsert
  exact hinsert

/-- A release reaches no other slot. -/
theorem slots_unbound_ne (hne : tok' ≠ tok) (b : Binding) :
    (w.unbound th tok b).slots.get? tok' = th.slots.get? tok' := by
  unfold unbound
  rw [Table.get?_insert, if_neg hne]

/-- When a binding to a dead instance ends, nothing is kept of its variables. -/
theorem leaves_unbound {b : Binding} (hb : th.binding? tok = some b) (hdead : w.isLive b.target = false)
    (hlive : ∀ id, w'.isLive id = true → w.isLive id = true) :
    Leaves w' th (w.unbound th tok b) tok := by
  have hnone : (w.unbound th tok b).binding? tok = none := by
    rw [binding?_unbound, if_pos rfl]
  have hretired : ∀ id, (w.unbound th tok b).retired? tok id =
      (th.retired? tok id).filter fun _ => w.isLive id := by
    intro id
    have hnot : ¬ (w.isLive b.target = true ∧ id = b.target) := by
      rw [hdead]
      exact fun h => Bool.false_ne_true h.1
    rw [retired?_unbound, get?_ended, if_neg hnot, retired?_getD]
  refine ⟨fun c hc => ?_, fun id v hv => ?_, fun id _ hlive' => ⟨fun c hc htarget => ?_, ?_⟩⟩
  · rw [hnone] at hc
    cases hc
  · rw [hretired] at hv
    exact (Option.filter_eq_some_iff.1 hv).1
  · -- the binding was to the instance that is dead
    obtain rfl := Option.some.inj (hb.symm.trans hc)
    have hlives := hlive b.target (htarget ▸ hlive')
    rw [hdead] at hlives
    cases hlives
  · rw [hretired, filter_isLive (hlive id hlive')]

/-- Tearing an instance down ends a binding to it. -/
theorem leaves_tearDown (w : World) (t : ThreadId) (tok : Token) (id : InstanceId) (t' : ThreadId)
    (tok' : Token) :
    Leaves (w.tearDown t tok id) (w.thread t') ((w.tearDown t tok id).thread t') tok' := by
  unfold tearDown
  rw [show (w.modifyInstance id fun i => { i with alive := false }) = w.marked id from rfl]
  dsimp only
  split
  · next hstale =>
    obtain ⟨b, hb, rfl, hdead⟩ := bindingState_eq_stale.1 hstale
    split
    · next hunbind =>
      rcases unbindThread_cases hunbind with ⟨hnone, rfl⟩ | ⟨c, hc, -, rfl⟩
      · exact .of_slot rfl
      · obtain rfl := Option.some.inj (hb.symm.trans hc)
        -- only the slot of the process on the calling thread is touched
        by_cases ht : t' = t
        · subst ht
          rw [thread_setThread_self]
          by_cases htok : tok' = tok
          · subst htok
            exact leaves_unbound hb hdead fun _ hlive => hlive
          · exact .of_slot (slots_unbound_ne htok b)
        · rw [thread_setThread, if_neg ht]
          exact .of_slot rfl
    · exact .of_slot rfl
  · exact .of_slot rfl

/-! ## Slots that take something up -/

/-- A thread may have been bound under a process, and `ended?` is the binding that has ended if one
has. Its variables wait for the next binding to the same instance; apart from that the thread keeps
what it kept. The worlds are the ones before and afterwards. -/
structure Recalls (w w' : World) (th th' : Thread) (tok : Token) (ended? : Option Binding) : Prop where
  bindings : ∀ b, th'.binding? tok = some b → th.binding? tok = some b ∨
    w.isLive b.target = true ∧ (w.processes.get? tok).isSome = true
  retired : ∀ id v, th'.retired? tok id = some v →
    th.retired? tok id = some v ∨ ∃ b, ended? = some b ∧ b.target = id
  kept : ∀ id, w'.isReleased tok = false → w'.isLive id = true →
    (∀ b, th'.binding? tok = some b → b.target ≠ id) →
    (∃ b, ended? = some b ∧ b.target = id ∧ th'.retired? tok id = some (th.varsOf b)) ∨
      (∀ b, ended? = some b → b.target ≠ id) ∧ (∀ b, th.binding? tok = some b → b.target ≠ id) ∧
        th'.retired? tok id = th.retired? tok id

namespace Recalls

/-- Where all that is of use is left alone, nothing has to be recalled. -/
theorem of_leaves (h : Leaves w' th th' tok) : Recalls w w' th th' tok none where
  bindings b hb := .inl (h.bindings b hb)
  retired id v hv := .inl (h.retired id v hv)
  kept id hrel hlive hnot := by
    obtain ⟨hb, hv⟩ := h.kept id hrel hlive
    exact .inr ⟨nofun, fun b hget htarget => hnot b (hb b hget htarget) htarget, hv⟩

/-- What is left alone afterwards makes no difference. -/
theorem trans {ended? : Option Binding} (h : Recalls w w₁ th th₁ tok ended?)
    (h' : Leaves w' th₁ th' tok) (hrel : w'.isReleased tok = false → w₁.isReleased tok = false)
    (hlive : ∀ id, w'.isLive id = true → w₁.isLive id = true) : Recalls w w' th th' tok ended? where
  bindings b hb := h.bindings b (h'.bindings b hb)
  retired id v hv := h.retired id v (h'.retired id v hv)
  kept id hrel' hlive' hnot := by
    obtain ⟨hb', hv'⟩ := h'.kept id hrel' hlive'
    rw [hv']
    exact h.kept id (hrel hrel') (hlive id hlive') fun b hb htarget =>
      hnot b (hb' b hb htarget) htarget

end Recalls

/-- A release puts the variables of its binding aside. -/
theorem recalls_unbindThread {id? : Option InstanceId} (h : w.unbindThread t tok = .ok (id?, w')) :
    Recalls w w' (w.thread t) (w'.thread t) tok ((w.thread t).lost? (w'.thread t) tok) := by
  rcases unbindThread_cases h with ⟨hnone, rfl⟩ | ⟨b, hb, -, rfl⟩
  · -- there was no binding
    rw [lost?_of_eq rfl]
    exact .of_leaves (.of_slot rfl)
  · rw [thread_setThread_self]
    have hnone : (w.unbound (w.thread t) tok b).binding? tok = none := by
      rw [binding?_unbound, if_pos rfl]
    have hretired := retired?_unbound w (w.thread t) tok b
    rw [lost?_of_binding hb (by rw [hnone]; nofun)]
    refine ⟨fun c hc => ?_, fun id v hv => ?_, fun id _ hlive _ => ?_⟩
    · rw [hnone] at hc
      cases hc
    · rw [hretired, Option.filter_eq_some_iff] at hv
      rcases retired?_of_ended hv.1 with hold | htarget
      · exact .inl hold
      · exact .inr ⟨b, rfl, htarget⟩
    · have hlive' : w.isLive id = true := hlive
      rw [hretired, filter_isLive hlive']
      rcases get?_ended_of_live hlive' b with ⟨htarget, hget⟩ | ⟨htarget, hget⟩
      · exact .inl ⟨b, rfl, htarget, hget⟩
      · refine .inr ⟨?_, ?_, hget⟩
        · intro c hc
          exact Option.some.inj hc ▸ htarget
        · intro c hc
          exact Option.some.inj (hb.symm.trans hc) ▸ htarget

/-! ### Binding -/

/-- Pruning takes the slots of processes whose keys are released. -/
theorem slots_pruneSlots (w : World) (th : Thread) (tok : Token) :
    (w.pruneSlots th).slots.get? tok = if w.isReleased tok then none else th.slots.get? tok := by
  have hfilter : (w.pruneSlots th).slots.get? tok =
      (th.slots.get? tok).filter fun _ => !w.isReleased tok := Table.get?_filter _ _ _
  rw [hfilter]
  cases w.isReleased tok <;> cases th.slots.get? tok <;> rfl

/-- The storage of a binding is not dropped. -/
theorem storages_pruneSlots {b : Binding} (hb : (w.pruneSlots th).binding? tok = some b) :
    (w.pruneSlots th).storages.get? b.storage = th.storages.get? b.storage := by
  have howns : ({ th with slots := th.slots.filter fun tok _ => !w.isReleased tok } :
      Thread).owns b.storage = true := owns_iff.2 ⟨tok, b, hb, rfl⟩
  have hfilter : (w.pruneSlots th).storages.get? b.storage =
      (th.storages.get? b.storage).filter fun st => st.borrowed ||
        ({ th with slots := th.slots.filter fun tok _ => !w.isReleased tok } : Thread).owns b.storage :=
    Table.get?_filter _ _ _
  rw [hfilter, howns]
  cases th.storages.get? b.storage with
  | none => rfl
  | some st => simp [Option.filter]

/-- A binding starts with the locale that waited for it, and with nothing else. -/
theorem storages_startBinding (w : World) (th : Thread) (tok : Token) (slot : Slot)
    (id : InstanceId) (s : StorageId) :
    (w.startBinding th tok slot id).2.storages.get? s =
      if s = ⟨th.nextStorage⟩ then
        some ⟨{ locale? := ((w.pruneRetired slot).retired.get? id).bind (·.locale?) }, false⟩
      else th.storages.get? s :=
  Table.get?_insert _ _ _ _

/-- A binding that starts takes what waited for it from the slot. -/
theorem retired?_startBinding (w : World) (th : Thread) (tok : Token) (slot : Slot)
    (id : InstanceId) (id' : InstanceId) :
    (w.startBinding th tok slot id).2.retired? tok id' =
      if id' = id then none else (w.pruneRetired slot).retired.get? id' := by
  have hinsert := retired?_insert th tok tok
    ⟨some (w.startBinding th tok slot id).1, (w.pruneRetired slot).retired.erase id⟩ id'
  rw [if_pos rfl] at hinsert
  exact hinsert.trans (Table.get?_erase _ _ _)

/-- A binding that starts reaches no other slot. -/
theorem slots_startBinding_ne (hne : tok' ≠ tok) (slot : Slot) (id : InstanceId) :
    (w.startBinding th tok slot id).2.slots.get? tok' = th.slots.get? tok' := by
  unfold startBinding
  rw [Table.get?_insert, if_neg hne]

/-- A bind leaves alone what the thread keeps for other processes, but for those whose bindings are
void. -/
theorem leaves_bindThread_ne (hne : tok' ≠ tok) (t' : ThreadId) :
    Leaves (w.bindThread t tok id).2 (w.thread t') ((w.bindThread t tok id).2.thread t') tok' := by
  obtain ⟨th', hrebound, hw⟩ := bindThread_cases w t tok id
  rw [hw, thread_setThread]
  split
  · next ht =>
    subst ht
    have hslot : th'.slots.get? tok' = (w.pruneSlots (w.thread t')).slots.get? tok' := by
      generalize (w.bindThread t' tok id).1 = r at hrebound
      cases hrebound with
      | same hb htarget => rfl
      | refused hb e => rfl
      | fresh hb => exact slots_startBinding_ne hne _ _
      | moved hb htarget hfree hth =>
        rw [slots_startBinding_ne hne, hth]
    rw [slots_pruneSlots] at hslot
    split at hslot
    · next hvoid => exact .of_void hslot hvoid
    · exact .of_slot hslot
  · exact .of_slot rfl

/-- What binding does to the slot of a thread whose slots are pruned. -/
theorem Rebound.recalls {r : Except AccessError Handle} (h : Rebound w th tok id r th')
    (hproc : (w.processes.get? tok).isSome = true) (hlive : w.isLive id = true) :
    Recalls w w th th' tok (th.lost? th' tok) := by
  -- binding keeps the slot, or starts a binding in it, before which an older one may have to end
  cases h with
  | same hb htarget =>
    rw [lost?_of_eq rfl]
    exact .of_leaves (.of_slot rfl)
  | refused hb e =>
    rw [lost?_of_eq rfl]
    exact .of_leaves (.of_slot rfl)
  | fresh hnone =>
    rw [lost?_of_none hnone]
    refine ⟨fun b hb => ?_, fun id' v hv => ?_, fun id' _ hlive' hnot => .inr ⟨nofun, ?_, ?_⟩⟩
    · rw [binding?_startBinding, if_pos rfl] at hb
      exact .inr (Option.some.inj hb ▸ ⟨hlive, hproc⟩)
    · rw [retired?_startBinding] at hv
      split at hv
      · cases hv
      · rw [get?_pruneRetired, Option.filter_eq_some_iff, retired?_getD] at hv
        exact .inl hv.1
    · rw [hnone]
      exact nofun
    · -- the instance is another one than the thread is bound to now
      have hne : id' ≠ id := by
        rintro rfl
        exact hnot _ (by rw [binding?_startBinding, if_pos rfl]) rfl
      rw [retired?_startBinding, if_neg hne, get?_pruneRetired_of_live hlive', retired?_getD]
  | @moved b hb htarget hfree th₁ hth₁ =>
    have hnew : (w.startBinding th₁ tok (w.ended th ((th.slots.get? tok).getD {}) b) id).2.binding? tok =
        some (w.startBinding th₁ tok (w.ended th ((th.slots.get? tok).getD {}) b) id).1 := by
      rw [binding?_startBinding, if_pos rfl]
    have hlost : (w.startBinding th₁ tok (w.ended th ((th.slots.get? tok).getD {}) b) id).2.binding? tok ≠
        some b := by
      rw [hnew]
      intro heq
      exact htarget (congrArg Binding.target (Option.some.inj heq)).symm
    rw [lost?_of_binding hb hlost]
    refine ⟨fun c hc => ?_, fun id' v hv => ?_, fun id' _ hlive' hnot => ?_⟩
    · rw [hnew] at hc
      exact .inr (Option.some.inj hc ▸ ⟨hlive, hproc⟩)
    · rw [retired?_startBinding] at hv
      split at hv
      · cases hv
      · rw [get?_pruneRetired, Option.filter_eq_some_iff] at hv
        rcases retired?_of_ended hv.1 with hold | heq
        · exact .inl hold
        · exact .inr ⟨b, rfl, heq⟩
    · -- what waits for the new instance is taken up, and nothing waits for it any more
      have hne : id' ≠ id := by
        rintro rfl
        exact hnot _ hnew rfl
      rw [retired?_startBinding, if_neg hne, get?_pruneRetired_of_live hlive']
      rcases get?_ended_of_live hlive' b with ⟨heq, hget⟩ | ⟨heq, hget⟩
      · exact .inl ⟨b, rfl, heq, hget⟩
      · refine .inr ⟨?_, ?_, hget⟩
        · intro c hc
          exact Option.some.inj hc ▸ heq
        · intro c hc
          exact Option.some.inj (hb.symm.trans hc) ▸ heq

/-- A bind to another instance puts the variables of the old binding aside, and takes up those that
wait for the new one. -/
theorem recalls_bindThread (hproc : (w.processes.get? tok).isSome = true)
    (hlive : w.isLive id = true) :
    Recalls w (w.bindThread t tok id).2 (w.thread t) ((w.bindThread t tok id).2.thread t) tok
      ((w.thread t).lost? ((w.bindThread t tok id).2.thread t) tok) := by
  obtain ⟨th', hrebound, hw⟩ := bindThread_cases w t tok id
  have hrecalls := hrebound.recalls hproc hlive
  have hslot := slots_pruneSlots w (w.thread t) tok
  rw [hw, thread_setThread_self]
  cases hvoid : w.isReleased tok with
  | true =>
    -- the slot went when the slots were pruned, so all that there is now is new
    rw [hvoid, if_pos rfl] at hslot
    have hnone : (w.pruneSlots (w.thread t)).binding? tok = none := by
      unfold binding?
      rw [hslot]
      rfl
    have hretired : ∀ id, (w.pruneSlots (w.thread t)).retired? tok id = none := by
      intro id
      unfold retired?
      rw [hslot]
      rfl
    rw [lost?_of_none hnone] at hrecalls
    refine ⟨fun b hb => ?_, fun id' v hv => ?_, fun id' hrel => ?_⟩
    · rcases hrecalls.bindings b hb with hold | hnew
      · rw [hnone] at hold
        cases hold
      · exact .inr hnew
    · rcases hrecalls.retired id' v hv with hold | ⟨b, hb, -⟩
      · rw [hretired] at hold
        cases hold
      · cases hb
    · have hrel' : w.isReleased tok = false := hrel
      rw [hvoid] at hrel'
      cases hrel'
  | false =>
    rw [hvoid, if_neg Bool.false_ne_true] at hslot
    have hbinding := binding?_congr hslot
    have hlost : (w.pruneSlots (w.thread t)).lost? th' tok = (w.thread t).lost? th' tok := by
      unfold lost?
      rw [hbinding]
    rw [hlost] at hrecalls
    refine ⟨fun b hb => ?_, fun id' v hv => ?_, fun id' hrel hlive' hnot => ?_⟩
    · rw [← hbinding]
      exact hrecalls.bindings b hb
    · rw [← retired?_congr hslot]
      exact hrecalls.retired id' v hv
    · rcases hrecalls.kept id' hrel hlive' hnot with ⟨b, hb, htarget, hvars⟩ | ⟨hnone, hnot', hsame⟩
      · have hget := (hbinding.trans (lost?_eq_some.1 hb).1)
        refine .inl ⟨b, hb, htarget, hvars.trans ?_⟩
        unfold varsOf
        rw [storages_pruneSlots hget]
      · refine .inr ⟨hnone, fun b hb => hnot' b (hbinding.trans hb), hsame.trans ?_⟩
        exact retired?_congr hslot id'

end World

end TieredState
