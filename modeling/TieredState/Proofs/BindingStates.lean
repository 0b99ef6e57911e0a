import TieredState.Proofs.Invariant

/-!
# The state machine of a binding

What a thread is bound to under a process is computed from its slot, which is pruned late and from
other processes, and from the life of an instance, which other threads may end. Its changes are few
all the same. `BindingEdge m t tok s s'` lists them, each with whose step of the machine `m` it is.

* `bindingState_edges` — every step of a run takes a binding state along an edge, if it changes it
  at all; other threads can only make a binding stale, and what is stale for an instance is never
  bound to it again.
-/

namespace TieredState

/-- The instance that a thread is bound to, live or not. -/
def BindingState.target? : BindingState → Option InstanceId
  | unbound => none
  | bound id | stale id => some id

/-- A change of what the thread `t` is bound to under the process `tok`, and the step of `m` that
makes it. -/
inductive BindingEdge (m : Machine) (t : ThreadId) (tok : Token) : BindingState → BindingState → Prop
  /-- The thread binds itself to an instance that it was not bound to. -/
  | bind {s : BindingState} {id : InstanceId} (hnew : s.target? ≠ some id) (h : m.Binds t tok id) :
    BindingEdge m t tok s (.bound id)
  /-- The thread releases its binding. -/
  | release {s : BindingState} {id : InstanceId} (hold : s.target? = some id)
    (h : m.Releases t tok) : BindingEdge m t tok s .unbound
  /-- The thread completes its own destruction of the instance. -/
  | destroy {s : BindingState} {id : InstanceId} (hold : s.target? = some id)
    (h : m.Destroys t tok id) : BindingEdge m t tok s .unbound
  /-- The thread shuts the process down. -/
  | shutdown {s : BindingState} {id : InstanceId} (hold : s.target? = some id)
    (h : m.ShutsDown t tok) : BindingEdge m t tok s .unbound
  /-- The process is shut down, and the thread binds itself under another one. -/
  | prune {s : BindingState} {id id' : InstanceId} {tok' : Token} {p : Process}
    (hold : s.target? = some id) (hother : tok' ≠ tok) (h : m.Binds t tok' id')
    (hp : m.session.world.processes.get? tok = some p) (hdown : p.phase = .shutDown) :
    BindingEdge m t tok s .unbound
  /-- The instance is marked dead, by another thread or while a closure uses the binding. -/
  | mark {id : InstanceId} {t' : ThreadId} (h : m.Marks t' tok id)
    (huse : t' = t → ∃ b, (m.session.world.thread t).binding? tok = some b ∧ b.target = id ∧
      (t, b.storage) ∈ m.uses) :
    BindingEdge m t tok (.bound id) (.stale id)

namespace World

variable {w w' : World} {t t' : ThreadId} {tok tok' : Token} {id : InstanceId} {b : Binding}

/-- A thread without a binding is unbound. -/
theorem bindingState_none (h : (w.thread t).binding? tok = none) :
    w.bindingState t tok = .unbound := by
  unfold bindingState
  rw [h]

/-- A thread with a binding is bound or stale, as its instance is live or not. -/
theorem bindingState_some (h : (w.thread t).binding? tok = some b) :
    w.bindingState t tok = if w.isLive b.target then .bound b.target else .stale b.target := by
  unfold bindingState
  rw [h]

/-- The state of a binding tells what it is to. -/
theorem target?_bindingState (w : World) (t : ThreadId) (tok : Token) :
    (w.bindingState t tok).target? = ((w.thread t).binding? tok).map (·.target) := by
  cases hb : (w.thread t).binding? tok with
  | none =>
    rw [bindingState_none hb]
    rfl
  | some b =>
    rw [bindingState_some hb]
    split <;> rfl

/-- The state is kept when the binding is, and the life of its instance. -/
theorem bindingState_congr (hb : (w'.thread t).binding? tok = (w.thread t).binding? tok)
    (hlive : ∀ b, (w.thread t).binding? tok = some b → w'.isLive b.target = w.isLive b.target) :
    w'.bindingState t tok = w.bindingState t tok := by
  cases h : (w.thread t).binding? tok with
  | none => rw [bindingState_none h, bindingState_none (hb.trans h)]
  | some b => rw [bindingState_some h, bindingState_some (hb.trans h), hlive b h]

/-- Whether an instance is live is decided by what the table of instances has for it. -/
theorem isLive_congr (h : w'.instances.get? id = w.instances.get? id) : w'.isLive id = w.isLive id := by
  unfold isLive
  rw [h]

/-- Threads other than the one that changed are bound to what they were bound to. -/
theorem Local.bindingState (h : Local t w w') (hne : t' ≠ t) :
    w'.bindingState t' tok = w.bindingState t' tok := by
  refine bindingState_congr ?_ fun b _ => h.isLive b.target
  rw [h.others t' hne]

/-! ## What each operation does to the state -/

/-- The release of a key unbinds the thread that releases it, and no other. -/
theorem bindingState_releaseKey (w : World) (t t' : ThreadId) (tok tok' : Token) :
    (w.releaseKey t tok).bindingState t' tok' =
      if t' = t ∧ tok' = tok then .unbound else w.bindingState t' tok' := by
  have hbinding : ((w.releaseKey t tok).thread t').binding? tok' =
      if t' = t ∧ tok' = tok then none else (w.thread t').binding? tok' := by
    unfold releaseKey
    rw [thread_setThread]
    by_cases ht : t' = t
    · rw [if_pos ht, Thread.binding?_dropSlot, ht]
      by_cases htok : tok' = tok
      · rw [if_pos htok, if_pos ⟨rfl, htok⟩]
      · rw [if_neg htok, if_neg fun h => htok h.2]
        rfl
    · rw [if_neg ht, if_neg fun h => ht h.1]
      rfl
  by_cases h : t' = t ∧ tok' = tok
  · rw [if_pos h] at hbinding ⊢
    exact bindingState_none hbinding
  · rw [if_neg h] at hbinding ⊢
    exact bindingState_congr hbinding fun _ _ => rfl

/-- Marking makes the bindings to the instance stale, and leaves others as they are. -/
theorem bindingState_marked (w : World) (t : ThreadId) (tok : Token) (id : InstanceId) :
    (w.marked id).bindingState t tok =
      if w.bindingState t tok = .bound id then .stale id else w.bindingState t tok := by
  cases hb : (w.thread t).binding? tok with
  | none =>
    have hb' : ((w.marked id).thread t).binding? tok = none := hb
    rw [bindingState_none hb, bindingState_none hb']
    rfl
  | some b =>
    have hb' : ((w.marked id).thread t).binding? tok = some b := hb
    rw [bindingState_some hb, bindingState_some hb', isLive_marked]
    by_cases htarget : b.target = id
    · subst htarget
      cases w.isLive b.target <;> simp
    · cases w.isLive b.target <;> simp [htarget]

/-- Tearing down ends the thread's own binding to the instance, unless that is in use, and makes
other bindings to it stale. -/
theorem bindingState_tearDown (w : World) (t t' : ThreadId) (tok tok' : Token) (id : InstanceId) :
    (w.tearDown t tok id).bindingState t' tok' = w.bindingState t' tok' ∨
    (t' = t ∧ tok' = tok ∧ (∃ b, (w.thread t).binding? tok = some b ∧ b.target = id) ∧
      (w.tearDown t tok id).bindingState t' tok' = .unbound) ∨
    (w.bindingState t' tok' = .bound id ∧ (w.tearDown t tok id).bindingState t' tok' = .stale id ∧
      (t' = t → tok' = tok → ∀ b, (w.thread t).binding? tok = some b → b.target = id →
        (w.thread t).usage b.storage = some true)) := by
  have hmarked := bindingState_marked w t' tok' id
  rcases tearDown_cases w t tok id with ⟨heq, hused⟩ | ⟨hbound, hspec⟩
  · rw [heq]
    split at hmarked
    · next hlive => exact .inr (.inr ⟨hlive, hmarked, fun _ _ => hused⟩)
    · exact .inl hmarked
  · -- the own binding ends, and others see the mark only
    by_cases hown : t' = t ∧ tok' = tok
    · obtain ⟨rfl, rfl⟩ := hown
      refine .inr (.inl ⟨rfl, rfl, hbound, bindingState_none ?_⟩)
      rw [hspec.bindings, if_pos rfl]
    · have hkeep : (w.tearDown t tok id).bindingState t' tok' = (w.marked id).bindingState t' tok' := by
        refine bindingState_congr ?_ fun b _ => hspec.frame.isLive b.target
        by_cases ht : t' = t
        · subst ht
          rw [hspec.bindings, if_neg fun h => hown ⟨rfl, h⟩]
        · rw [hspec.frame.others t' ht]
      rw [hkeep]
      split at hmarked
      · next hlive => exact .inr (.inr ⟨hlive, hmarked, fun ht htok => absurd ⟨ht, htok⟩ hown⟩)
      · exact .inl hmarked

/-- Binding gives the thread a live instance under the process, if it is not refused. Under other
processes it ends the bindings that are void. -/
theorem bindingState_bind {out : List InstanceId} (h : RegistrySound w out) (t : ThreadId)
    (tok tok' : Token) (id : InstanceId) :
    (w.bind t tok id).2.bindingState t tok' = w.bindingState t tok' ∨
    (tok' = tok ∧ (w.bindingState t tok').target? ≠ some id ∧
      (w.bind t tok id).2.bindingState t tok' = .bound id) ∨
    (tok' ≠ tok ∧ w.isReleased tok' = true ∧
      (w.bind t tok id).2.bindingState t tok' = .unbound) := by
  unfold World.bind
  split
  · exact .inl rfl
  · next p hp =>
    split
    · exact .inl rfl
    · split
      · exact .inl rfl
      · next halive =>
        have hlive := checkAlive_ok.1 halive
        have hspec := bindThread_spec w t tok id
        by_cases htok : tok' = tok
        · subst htok
          rcases hspec.own with ⟨b, -, htarget, hb⟩ | ⟨e, -, hb⟩
          · have hnew : (w.bindThread t tok' id).2.bindingState t tok' = .bound id := by
              rw [bindingState_some hb, hspec.frame.isLive, htarget, if_pos hlive]
            -- a thread that was bound to the instance was not stale, since it is live
            by_cases hsame : (w.bindingState t tok').target? = some id
            · refine .inl (hnew.trans ?_)
              rw [target?_bindingState, Option.map_eq_some_iff] at hsame
              obtain ⟨c, hc, rfl⟩ := hsame
              rw [bindingState_some hc, if_pos hlive]
            · exact .inr (.inl ⟨rfl, hsame, hnew⟩)
          · -- refused: the process is not shut down, so its binding was not pruned
            rw [h.not_released hp] at hb
            exact .inl (bindingState_congr hb fun c _ => hspec.frame.isLive c.target)
        · have hother := hspec.others tok' htok
          cases hrel : w.isReleased tok' with
          | true =>
            rw [hrel] at hother
            exact .inr (.inr ⟨htok, rfl, bindingState_none hother⟩)
          | false =>
            rw [hrel] at hother
            exact .inl (bindingState_congr hother fun c _ => hspec.frame.isLive c.target)

/-- Releasing ends one binding. -/
theorem UnbindSpec.bindingState (h : UnbindSpec w t tok w') (t' : ThreadId) (tok' : Token) :
    w'.bindingState t' tok' = if t' = t ∧ tok' = tok then .unbound else w.bindingState t' tok' := by
  by_cases ht : t' = t
  · subst ht
    have hb := h.bindings tok'
    by_cases htok : tok' = tok
    · rw [if_pos htok] at hb
      rw [if_pos ⟨rfl, htok⟩, bindingState_none hb]
    · rw [if_neg htok] at hb
      rw [if_neg fun hand => htok hand.2]
      exact bindingState_congr hb fun c _ => h.frame.isLive c.target
  · rw [if_neg fun hand => ht hand.1]
    exact h.frame.bindingState ht

/-- What is new in the world is nothing that a thread is bound to. -/
theorem bindingState_enroll {uses : List (ThreadId × StorageId)} (h : BindingsSound w uses)
    (t t' : ThreadId) (tok tok' : Token) (parent? : Option InstanceId) :
    (w.enroll t tok parent?).2.bindingState t' tok' = w.bindingState t' tok' := by
  rcases enroll_cases w t tok parent? with ⟨e, heq⟩ | ⟨e, heq⟩ | ⟨p, -, -, heq⟩
  · rw [heq]
  · rw [heq]
    rfl
  · rw [heq]
    refine bindingState_congr rfl fun b hb => isLive_congr ?_
    have hne : b.target ≠ ⟨w.nextInstance⟩ := by
      intro hnew
      have hlt := (h.bound t' tok' b hb).1
      rw [hnew] at hlt
      exact Nat.lt_irrefl _ hlt
    show (w.instances.insert ⟨w.nextInstance⟩ _).get? b.target = _
    rw [Table.get?_insert, if_neg hne]

/-- A thread that is bound to an instance under a process has it from that process. -/
theorem owner_of_bindingState {uses : List (ThreadId × StorageId)} (h : BindingsSound w uses)
    (hs : w.bindingState t tok = .bound id) :
    ∃ b i, (w.thread t).binding? tok = some b ∧ b.target = id ∧ w.instances.get? id = some i ∧
      i.owner = tok := by
  cases hb : (w.thread t).binding? tok with
  | none =>
    rw [bindingState_none hb] at hs
    cases hs
  | some b =>
    rw [bindingState_some hb] at hs
    split at hs
    · next hlive =>
      obtain rfl := BindingState.bound.inj hs
      obtain ⟨i, hi, -⟩ := isLive_iff.1 hlive
      exact ⟨b, i, rfl, rfl, hi, (h.bound t tok b hb).2 i hi⟩
    · cases hs

end World

namespace Machine

open World

variable {m m' : Machine} {t : ThreadId} {tok : Token} {v' : View} {w : World}

/-- The end of closures leaves the states of bindings as they are. -/
theorem EndUses.bindingState {w w' : World} {ended : List (ThreadId × StorageId)}
    (h : EndUses w ended w') (t : ThreadId) (tok : Token) :
    w'.bindingState t tok = w.bindingState t tok := by
  induction h with
  | done hc => exact hc.bindingState t tok
  | calm hc _ ih => exact ih.trans (hc.bindingState t tok)
  | @storage w w' t' s uses _ ih =>
    have hspec := endBorrow_spec w t' s
    refine ih.trans (bindingState_congr ?_ fun b _ => hspec.frame.isLive b.target)
    by_cases ht : t = t'
    · subst ht
      exact hspec.bindings tok
    · rw [hspec.frame.others t ht]

/-- Either nothing is bound before, or there is an instance that the binding was to. -/
theorem unbound_or_target (s : BindingState) : s = .unbound ∨ ∃ id, s.target? = some id := by
  cases s with
  | unbound => exact .inl rfl
  | bound id => exact .inr ⟨id, rfl⟩
  | stale id => exact .inr ⟨id, rfl⟩

/-- The teardown of an instance takes a binding along an edge. -/
theorem edge_tearDown (hc : Calm m.session.world w) (hs : View.Sound { m.view with world := w })
    {t' : ThreadId} {tok' : Token} {id : InstanceId} (h : m.Marks t' tok' id)
    {charges : List (Token × InstanceId)} (hcharges : m.charges = (tok', id) :: charges) :
    (w.tearDown t' tok' id).bindingState t tok = w.bindingState t tok ∨
      BindingEdge m t tok (w.bindingState t tok) ((w.tearDown t' tok' id).bindingState t tok) := by
  rcases bindingState_tearDown w t' t tok' tok id with hsame | ⟨rfl, rfl, ⟨b, hb, htarget⟩, hnew⟩ |
      ⟨hold, hnew, huse⟩
  · exact .inl hsame
  · have hold : (w.bindingState t tok).target? = some id := by
      rw [target?_bindingState, hb]
      exact congrArg some htarget
    rw [hnew]
    rcases h.destroys_or_shutsDown with hd | hd
    · exact .inr (.destroy hold hd)
    · exact .inr (.shutdown hold hd)
  · obtain ⟨b, i, hb, htarget, hi, howner⟩ := owner_of_bindingState hs.world.bindings hold
    have hcharge : (tok', id) ∈ m.charges := by
      rw [hcharges]
      exact List.mem_cons_self
    -- the instance has one owner, so it is under this process that the binding is
    have htok : tok = tok' := howner.symm.trans ((hs.owners _ hcharge).2 i hi)
    subst htok
    rw [hold, hnew]
    refine .inr (.mark h ?_)
    rintro rfl
    refine ⟨b, hc.bindings t' tok ▸ hb, htarget, ?_⟩
    exact hs.world.bindings.used t' b.storage (huse rfl rfl b hb htarget)

/-- The release of a process's key takes a binding along an edge. -/
theorem edge_releaseKey {w₀ : World} {t' : ThreadId} {tok' : Token} (h : m.ShutsDown t' tok')
    (hbefore : w.bindingState t tok = w₀.bindingState t tok ∨
      BindingEdge m t tok (w₀.bindingState t tok) (w.bindingState t tok)) :
    (w.releaseKey t' tok').bindingState t tok = w₀.bindingState t tok ∨
      BindingEdge m t tok (w₀.bindingState t tok) ((w.releaseKey t' tok').bindingState t tok) := by
  rw [bindingState_releaseKey]
  split
  · next hown =>
    obtain ⟨rfl, rfl⟩ := hown
    rcases unbound_or_target (w₀.bindingState t tok) with hnone | ⟨id, hold⟩
    · exact .inl hnone.symm
    · exact .inr (.shutdown hold h)
  · exact hbefore

/-- A move takes a binding along an edge, as long as its process and its thread are there. -/
theorem Move.edge (h : Move m { m.view with world := w } v') (hc : Calm m.session.world w)
    (hs : View.Sound { m.view with world := w }) (hthread : ¬ m.EndsThread t)
    (hproc : v'.world.processes.contains tok = true) :
    v'.world.bindingState t tok = w.bindingState t tok ∨
      BindingEdge m t tok (w.bindingState t tok) (v'.world.bindingState t tok) := by
  cases h with
  | calm hcalm => exact .inl (hcalm.bindingState t tok)
  | start c hcalm => exact .inl (hcalm.bindingState t tok)
  | @endThread t' hend =>
    have hne : t ≠ t' := by
      rintro rfl
      exact hthread hend
    exact .inl ((local_withoutThread w t').bindingState hne)
  | @bind t' tok' id hbinds =>
    by_cases ht : t = t'
    · subst ht
      rcases bindingState_bind hs.world.registry t tok' tok id with hsame | ⟨rfl, hold, hnew⟩ |
          ⟨htok, hrel, hnew⟩
      · exact .inl hsame
      · exact .inr (hnew ▸ .bind hold hbinds)
      · -- the process is there, so its bindings are void because it is shut down
        change (w.bind t tok' id).2.processes.contains tok = true at hproc
        rw [(local_bind w t tok' id).processes] at hproc
        obtain ⟨p, hp⟩ := Option.isSome_iff_exists.1 hproc
        unfold isReleased at hrel
        rw [hp] at hrel
        obtain ⟨p₀, hp₀, hphase, -⟩ := hc.process_of hp
        have hdown := hphase.trans (hs.world.registry.released tok p hp hrel)
        show (w.bind t tok' id).2.bindingState t tok = _ ∨ BindingEdge m t tok _
          ((w.bind t tok' id).2.bindingState t tok)
        rw [hnew]
        rcases unbound_or_target (w.bindingState t tok) with hnone | ⟨id', hold⟩
        · exact .inl hnone.symm
        · exact .inr (.prune hold (Ne.symm htok) hbinds hp₀ hdown)
    · exact .inl ((local_bind w t' tok' id).bindingState ht)
  | @release t' tok' hrel id? w' hr =>
    obtain ⟨p, -, hu⟩ := bind_eq_ok.1 hr
    have hstate := (unbindThread_ok hu).bindingState t tok
    show w'.bindingState t tok = _ ∨ BindingEdge m t tok _ (w'.bindingState t tok)
    rw [hstate]
    split
    · next hown =>
      obtain ⟨rfl, rfl⟩ := hown
      rcases unbound_or_target (w.bindingState t tok) with hnone | ⟨id, hold⟩
      · exact .inl hnone.symm
      · exact .inr (.release hold hrel)
    · exact .inl rfl
  | enroll t' tok' parent? => exact .inl (bindingState_enroll hs.world.bindings t' t tok' tok parent?)
  | withdraw hw =>
    obtain ⟨p, -, -, -, rfl⟩ := withdraw_ok hw
    exact .inl rfl
  | beginShutdown hw =>
    obtain ⟨p, -, -, rfl⟩ := beginShutdown_ok hw
    exact .inl rfl
  | shutdown hdown hw =>
    obtain ⟨p, -, -, rfl⟩ := beginShutdown_ok hw
    exact edge_releaseKey hdown (.inl rfl)
  | tearDown hmarks hcharges => exact edge_tearDown hc hs hmarks hcharges
  | endShutdown hmarks hdown hcharges _ =>
    exact edge_releaseKey hdown (edge_tearDown hc hs hmarks hcharges)
  | @borrow t' handle w' hw =>
    have hspec := borrow_ok hw
    refine .inl (bindingState_congr ?_ fun b _ => hspec.frame.isLive b.target)
    by_cases ht : t = t'
    · subst ht
      exact hspec.bindings tok
    · exact congrArg (·.binding? tok) (hspec.frame.others t ht)
  | endUses _ he => exact .inl (he.bindingState t tok)

/-! ## Steps and runs -/

/-- A sweep takes nothing that a thread is bound to under a process that stays. -/
theorem bindingState_swept {w' : World} {ids out : List InstanceId}
    {uses : List (ThreadId × StorageId)} (h : Swept ids w w') (hs : World.Sound w out uses)
    (hout : out ⊆ ids) (hproc : w'.processes.contains tok = true) :
    w'.bindingState t tok = w.bindingState t tok := by
  obtain ⟨p, hp⟩ := Option.isSome_iff_exists.1 hproc
  refine bindingState_congr (h.bindings t tok p hp) ?_
  intro b hb
  cases hlive : w.isLive b.target with
  | true =>
    -- live, so registered with the process or condemned: the sweep keeps either
    obtain ⟨i, hi, halive⟩ := isLive_iff.1 hlive
    obtain rfl := (hs.bindings.bound t tok b hb).2 i hi
    have hkept := hs.registry.housed b.target i p hi halive (h.processes _ p hp)
    have hkeep : w'.instances.get? b.target = w.instances.get? b.target := by
      refine h.kept b.target ?_
      rcases hkept with hid | hid
      · exact .inr ⟨_, p, hp, hid⟩
      · exact .inl (hout hid)
    rw [isLive_congr hkeep, hlive]
  | false =>
    refine Bool.eq_false_iff.2 fun hagain => ?_
    obtain ⟨i, hi, halive⟩ := isLive_iff.1 hagain
    rw [isLive_iff.2 ⟨i, h.instances _ i hi, halive⟩] at hlive
    cases hlive

/-- A step leaves the state of a binding as it is, or takes it along an edge. -/
theorem edge_step (h : m.Sound) (hok : m.orderly = true) (hthread : ¬ m.EndsThread t)
    (hproc : m.step.session.world.processes.contains tok = true) :
    m.step.session.world.bindingState t tok = m.session.world.bindingState t tok ∨
      BindingEdge m t tok (m.session.world.bindingState t tok)
        (m.step.session.world.bindingState t tok) := by
  obtain ⟨w, hc, hmove⟩ := act_move hok
  have hact := (sound_act h hok).1
  have hswept := (sound_sweep hact m.actor).2
  have hproc' : m.act.session.world.processes.contains tok = true := by
    obtain ⟨p, hp⟩ := Option.isSome_iff_exists.1 hproc
    exact Option.isSome_iff_exists.2 ⟨p, hswept.processes tok p hp⟩
  have hstep : m.step.session.world.bindingState t tok = m.act.session.world.bindingState t tok :=
    bindingState_swept hswept hact.world m.act.condemned_subset_heldIds hproc
  rw [hstep, ← hc.bindingState t tok]
  exact hmove.edge hc (View.Sound.calm h hc) hthread hproc'

/-- Other threads than the one whose step it is can only make a binding stale. -/
theorem edge_of_other {s s' : BindingState} (h : BindingEdge m t tok s s') (hother : t ≠ m.actor) :
    ∃ id, s = .bound id ∧ s' = .stale id := by
  cases h with
  | bind _ h =>
    obtain ⟨ctx, p, i, as?, hcall, ht, -⟩ := h
    exact absurd ((actor_of_nextCall? hcall).trans ht).symm hother
  | release _ h =>
    obtain ⟨ctx, p, hcall, ht, -⟩ := h
    exact absurd ((actor_of_nextCall? hcall).trans ht).symm hother
  | destroy _ h =>
    obtain ⟨d, hfin, -, ht, -⟩ := h
    exact absurd ((actor_of_finishing? hfin).trans ht).symm hother
  | shutdown _ h =>
    rcases h with ⟨ctx, p, hcall, ht, -⟩ | ⟨d, rest, count, hfin, -, ht, -⟩
    · exact absurd ((actor_of_nextCall? hcall).trans ht).symm hother
    · exact absurd ((actor_of_finishing? hfin).trans ht).symm hother
  | prune _ _ h _ _ =>
    obtain ⟨ctx, p, i, as?, hcall, ht, -⟩ := h
    exact absurd ((actor_of_nextCall? hcall).trans ht).symm hother
  | @mark id t' _ _ => exact ⟨id, rfl, rfl⟩

/-- A thread that has a stale binding is never bound to that instance again. -/
theorem not_bound_of_stale {id : InstanceId} (h : m.Sound) (hrun : Run orderly m m')
    (hstale : m.session.world.bindingState t tok = .stale id) :
    m'.session.world.bindingState t tok ≠ .bound id := by
  obtain ⟨b, hb, rfl, hdead⟩ := bindingState_eq_stale.1 hstale
  obtain ⟨hsound, hgrows⟩ := sound_of_run h hrun
  intro hbound
  obtain ⟨c, i, hc, htarget, -⟩ := owner_of_bindingState hsound.bindings hbound
  have hlive := hgrows.not_live (h.bindings.bound t tok b hb).1 hdead
  rw [bindingState_some hc, htarget, if_neg (Bool.eq_false_iff.1 hlive)] at hbound
  cases hbound

/-- At every point of a run, and for every thread and every process: the next step takes what the
thread is bound to along an edge, if it changes it, as long as the process is there and the thread is
not ended; the step of another thread can only make the binding stale; and what is stale is never
bound to the same instance later. -/
theorem bindingState_edges (hm : Reachable orderly m) (t : ThreadId) (tok : Token) :
    (m.orderly = true → ¬ m.EndsThread t →
      m.step.session.world.processes.contains tok = true →
      (m.step.session.world.bindingState t tok = m.session.world.bindingState t tok ∨
        BindingEdge m t tok (m.session.world.bindingState t tok)
          (m.step.session.world.bindingState t tok)) ∧
      (t ≠ m.actor →
        m.step.session.world.bindingState t tok = m.session.world.bindingState t tok ∨
        ∃ id, m.session.world.bindingState t tok = .bound id ∧
          m.step.session.world.bindingState t tok = .stale id)) ∧
    ∀ id m', m.session.world.bindingState t tok = .stale id → Run orderly m m' →
      m'.session.world.bindingState t tok ≠ .bound id := by
  have hsound := sound_of_reachable hm
  refine ⟨?_, fun id m' hstale hrun => not_bound_of_stale hsound hrun hstale⟩
  intro hok hthread hproc
  have hedge := edge_step hsound hok hthread hproc
  refine ⟨hedge, fun hother => ?_⟩
  rcases hedge with hsame | hedge
  · exact .inl hsame
  · exact .inr (edge_of_other hedge hother)

/-- The worker marks the instance that the main thread is bound to. -/
theorem stale_by_worker :
    BindingEdge (destroyedByWorker.run 5) .main ⟨1⟩ (.bound ⟨1⟩) (.stale ⟨1⟩) := by
  have hbefore : (destroyedByWorker.run 5).session.world.bindingState .main ⟨1⟩ = .bound ⟨1⟩ := by
    decide +kernel
  have hafter :
      (destroyedByWorker.run 5).step.session.world.bindingState .main ⟨1⟩ = .stale ⟨1⟩ := by
    decide +kernel
  have hthread : ¬ (destroyedByWorker.run 5).EndsThread .main := by
    rintro ⟨ctx, name, -, hworker⟩
    cases hworker
  have hedges := bindingState_edges (m := destroyedByWorker.run 5) (.of_run (by decide +kernel))
    .main ⟨1⟩
  obtain ⟨hsame | hedge, -⟩ := hedges.1 (by decide +kernel) hthread (by decide +kernel)
  · rw [hbefore, hafter] at hsame
    cases hsame
  · rw [hbefore, hafter] at hedge
    exact hedge

end Machine

end TieredState
