import TieredState.Proofs.Growth

/-!
# Bindings and the storages in use

`BindingsSound w uses` says what holds of the threads of a world at any point, `uses` being the
storages that closures under way use: each thread's slots and storages fit together, a storage is
marked as used only on behalf of such a closure, and what is bound under a process is an instance
of that process. Together with `RegistrySound` this is `Sound`, the invariant of every run.
-/

namespace TieredState.World

variable {w w' : World} {t : ThreadId} {tok : Token} {id : InstanceId}
  {uses : List (ThreadId × StorageId)} {out : List InstanceId}

/-- Threads fit together with the closures under way, which use the storages `uses`, and with the
instances that they are bound to. -/
structure BindingsSound (w : World) (uses : List (ThreadId × StorageId)) : Prop where
  threads : ∀ t, (w.thread t).Sound
  used : ∀ t s, (w.thread t).usage s = some true → (t, s) ∈ uses
  bound : ∀ t tok b, (w.thread t).binding? tok = some b →
    b.target.number < w.nextInstance ∧ ∀ i, w.instances.get? b.target = some i → i.owner = tok

theorem bindingsSound_empty : BindingsSound {} [] where
  threads _ := Thread.sound_empty
  used _ _ h := by cases h
  bound _ _ _ h := by cases h

namespace BindingsSound

theorem calm (h : BindingsSound w uses) (hc : Calm w w') : BindingsSound w' uses where
  threads t := (h.threads t).congr (hc.bindings t) (hc.usage t) (hc.nextStorage t)
  used t s hs := h.used t s (hc.usage t s ▸ hs)
  bound t tok b hb := by
    obtain ⟨hlt, hown⟩ := h.bound t tok b (hc.bindings t tok ▸ hb)
    refine ⟨hc.nextInstance ▸ hlt, fun i' hi' => ?_⟩
    obtain ⟨i, hi, ho, -⟩ := hc.instance_of hi'
    exact ho ▸ hown i hi

/-- Owners do not change, so bindings stay right while threads stay as they are. -/
theorem of_grows (h : BindingsSound w uses) (hthread : ∀ t, w'.thread t = w.thread t)
    (hg : Grows w w') : BindingsSound w' uses where
  threads t := by
    rw [hthread]
    exact h.threads t
  used t s hs := by
    rw [hthread] at hs
    exact h.used t s hs
  bound t tok b hb := by
    rw [hthread] at hb
    obtain ⟨hlt, hown⟩ := h.bound t tok b hb
    refine ⟨Nat.lt_of_lt_of_le hlt hg.nextInstance, fun i' hi' => ?_⟩
    obtain ⟨i, hi, ho, -⟩ := hg.instances _ i' hi' hlt
    exact ho ▸ hown i hi

/-- A change of one thread keeps the invariant if that thread stays sound, uses what the closures
use, and is bound to instances of the right owners. -/
theorem of_local (h : BindingsSound w uses) (hl : Local t w w') {uses' : List (ThreadId × StorageId)}
    (hsound : (w'.thread t).Sound) (hused : ∀ s, (w'.thread t).usage s = some true → (t, s) ∈ uses')
    (hothers : ∀ t' s, t' ≠ t → (t', s) ∈ uses → (t', s) ∈ uses')
    (hbound : ∀ tok b, (w'.thread t).binding? tok = some b →
      b.target.number < w.nextInstance ∧ ∀ i, w.instances.get? b.target = some i → i.owner = tok) :
    BindingsSound w' uses' where
  threads t' := by
    by_cases heq : t' = t
    · exact heq ▸ hsound
    · rw [hl.others t' heq]
      exact h.threads t'
  used t' s hs := by
    by_cases heq : t' = t
    · subst heq
      exact hused s hs
    · rw [hl.others t' heq] at hs
      exact hothers t' s heq (h.used t' s hs)
  bound t' tok b hb := by
    rw [hl.nextInstance, hl.instances]
    by_cases heq : t' = t
    · subst heq
      exact hbound tok b hb
    · rw [hl.others t' heq] at hb
      exact h.bound t' tok b hb

/-- A thread may lose bindings. -/
theorem of_local_sub (h : BindingsSound w uses) (hl : Local t w w')
    (hsound : (w.thread t).Sound → (w'.thread t).Sound)
    (husage : ∀ s, (w'.thread t).usage s = some true → (w.thread t).usage s = some true)
    (hsub : ∀ tok b, (w'.thread t).binding? tok = some b → (w.thread t).binding? tok = some b) :
    BindingsSound w' uses :=
  h.of_local hl (hsound (h.threads t)) (fun s hs => h.used t s (husage s hs))
    (fun _ _ _ hmem => hmem) fun tok b hb => h.bound t tok b (hsub tok b hb)

/-! ## The operations -/

/-- A thread may be bound to whatever instance of the process there is. -/
theorem bindThread (h : BindingsSound w uses) (t : ThreadId)
    (hid : id.number < w.nextInstance) (hown : ∀ i, w.instances.get? id = some i → i.owner = tok) :
    BindingsSound (w.bindThread t tok id).2 uses := by
  have hspec := bindThread_spec w t tok id
  refine h.of_local hspec.frame (hspec.sound (h.threads t))
    (fun s hs => h.used t s (hspec.usage s hs)) (fun _ _ _ hmem => hmem) ?_
  -- what is bound now is the new instance, or was bound before
  intro tok' b hb
  by_cases heq : tok' = tok
  · subst heq
    rcases hspec.own with ⟨b', -, htarget, hb'⟩ | ⟨e, -, hb'⟩
    · rw [hb] at hb'
      obtain rfl := Option.some.inj hb'
      exact htarget ▸ ⟨hid, hown⟩
    · rw [hb] at hb'
      split at hb'
      · cases hb'
      · exact h.bound t tok' b hb'.symm
  · have hother := hspec.others tok' heq
    rw [hb] at hother
    split at hother
    · cases hother
    · exact h.bound t tok' b hother.symm

/-- The end of a binding keeps the others sound. -/
theorem unbind (h : BindingsSound w uses) (hu : UnbindSpec w t tok w') : BindingsSound w' uses := by
  refine h.of_local_sub hu.frame hu.sound hu.usage ?_
  intro tok' b hb
  rw [hu.bindings] at hb
  split at hb
  · cases hb
  · exact hb

theorem borrow (h : BindingsSound w uses) {handle : Handle} (hb : BorrowSpec w t handle w') :
    BindingsSound w' ((t, handle.storage) :: uses) := by
  refine h.of_local hb.frame (hb.sound (h.threads t)) ?_
    (fun _ _ _ hmem => List.mem_cons_of_mem _ hmem) ?_
  · intro s hs
    rw [hb.usage] at hs
    split at hs
    · next heq =>
      rw [heq]
      exact List.mem_cons_self
    · exact List.mem_cons_of_mem _ (h.used t s hs)
  · intro tok b hget
    exact h.bound t tok b (hb.bindings tok ▸ hget)

theorem endBorrow {s : StorageId} (h : BindingsSound w ((t, s) :: uses)) :
    BindingsSound (w.endBorrow t s) uses := by
  have hspec := endBorrow_spec w t s
  refine h.of_local hspec.frame (hspec.sound (h.threads t)) ?_ ?_ ?_
  · -- the storage that was given back is not in use any more, so no other entry is needed for it
    intro s' hs'
    obtain ⟨hne, hold⟩ := hspec.usage s' hs'
    rcases List.mem_cons.1 (h.used t s' hold) with heq | hmem
    · exact absurd (Prod.mk.inj heq).2 hne
    · exact hmem
  · intro t' s' hne hmem
    rcases List.mem_cons.1 hmem with heq | hmem
    · exact absurd (Prod.mk.inj heq).1 hne
    · exact hmem
  · intro tok b hget
    exact h.bound t tok b (hspec.bindings tok ▸ hget)

/-- A thread may forget a process, with all that it keeps for it. -/
theorem dropSlot (h : BindingsSound w uses) (t : ThreadId) (tok : Token) :
    BindingsSound (w.setThread t ((w.thread t).dropSlot tok)) uses := by
  have hthread : (w.setThread t ((w.thread t).dropSlot tok)).thread t = (w.thread t).dropSlot tok := by
    rw [thread_setThread_self]
  refine h.of_local_sub (local_setThread _ _ _) ?_ ?_ ?_
  · intro hs
    rw [hthread]
    exact hs.dropSlot tok
  · intro s hs
    rw [hthread] at hs
    exact Thread.usage_dropSlot_true hs
  · intro tok' b hb
    rw [hthread, Thread.binding?_dropSlot] at hb
    split at hb
    · cases hb
    · exact hb

end BindingsSound

/-! ## The end of a thread -/

/-- The world without what a thread keeps. -/
def withoutThread (w : World) (t : ThreadId) : World := { w with threads := w.threads.erase t }

theorem thread_withoutThread (w : World) (t t' : ThreadId) :
    (w.withoutThread t).thread t' = if t' = t then {} else w.thread t' := by
  unfold thread withoutThread
  rw [Table.get?_erase]
  split <;> rfl

theorem local_withoutThread (w : World) (t : ThreadId) : Local t w (w.withoutThread t) where
  instances := rfl
  processes := rfl
  nextInstance := rfl
  nextToken := rfl
  others t' hne := by rw [thread_withoutThread, if_neg hne]

theorem BindingsSound.withoutThread (h : BindingsSound w uses) (t : ThreadId) :
    BindingsSound (w.withoutThread t) uses := by
  have hempty : (w.withoutThread t).thread t = {} := by
    rw [thread_withoutThread, if_pos rfl]
  refine h.of_local_sub (local_withoutThread w t) ?_ ?_ ?_
  · intro _
    rw [hempty]
    exact Thread.sound_empty
  · intro s hs
    rw [hempty] at hs
    cases hs
  · intro tok b hb
    rw [hempty] at hb
    cases hb

/-! ## Tearing an instance down -/

/-- The world with an instance marked dead. -/
def marked (w : World) (id : InstanceId) : World :=
  w.modifyInstance id fun i => { i with alive := false }

/-- Only the instance that is marked is dead thereby. -/
theorem isLive_marked (w : World) (id id' : InstanceId) :
    (w.marked id).isLive id' = (!decide (id' = id) && w.isLive id') := by
  unfold isLive marked
  rw [get?_modifyInstance]
  by_cases heq : id' = id
  · subst heq
    cases w.instances.get? id' <;> simp
  · simp [heq]

/-- A binding is stale if it is to an instance that is no longer live. -/
theorem bindingState_eq_stale :
    w.bindingState t tok = .stale id ↔
      ∃ b, (w.thread t).binding? tok = some b ∧ b.target = id ∧ w.isLive id = false := by
  unfold bindingState
  cases (w.thread t).binding? tok with
  | none => simp
  | some b =>
    cases hlive : w.isLive b.target with
    | true =>
      simp only [hlive, ↓reduceIte, reduceCtorEq, Option.some.injEq, false_iff, not_exists, not_and]
      rintro _ rfl rfl hdead
      rw [hlive] at hdead
      cases hdead
    | false =>
      simp only [hlive, Bool.false_eq_true, ↓reduceIte, BindingState.stale.injEq, Option.some.injEq]
      constructor
      · rintro rfl
        exact ⟨b, rfl, rfl, hlive⟩
      · rintro ⟨_, rfl, rfl, -⟩
        rfl

/-- Tearing down marks the instance. A binding of the thread to it ends, unless it is in use. -/
theorem tearDown_cases (w : World) (t : ThreadId) (tok : Token) (id : InstanceId) :
    (w.tearDown t tok id = w.marked id ∧
      ∀ b, (w.thread t).binding? tok = some b → b.target = id →
        (w.thread t).usage b.storage = some true) ∨
    ((∃ b, (w.thread t).binding? tok = some b ∧ b.target = id) ∧
      UnbindSpec (w.marked id) t tok (w.tearDown t tok id)) := by
  unfold tearDown
  rw [show (w.modifyInstance id fun i => { i with alive := false }) = w.marked id from rfl]
  dsimp only
  split
  · next hstale =>
    obtain ⟨b, hb, htarget, -⟩ := bindingState_eq_stale.1 hstale
    -- a release is refused only while the storage is in use
    cases hun : (w.marked id).unbindThread t tok with
    | ok r => exact .inr ⟨⟨b, hb, htarget⟩, unbindThread_ok hun⟩
    | error e =>
      obtain ⟨-, b', hb', hused⟩ := unbindThread_error hun
      refine .inl ⟨rfl, fun c hc _ => ?_⟩
      change (w.thread t).binding? tok = some b' at hb'
      rw [hc] at hb'
      obtain rfl := Option.some.inj hb'
      exact hused
  · next hstale =>
    refine .inl ⟨rfl, fun b hb htarget => absurd ?_ hstale⟩
    have hdead : (w.marked id).isLive id = false := by simp [isLive_marked]
    exact bindingState_eq_stale.2 ⟨b, hb, htarget, hdead⟩

theorem processes_tearDown (w : World) (t : ThreadId) (tok : Token) (id : InstanceId) :
    (w.tearDown t tok id).processes = w.processes := by
  rcases tearDown_cases w t tok id with ⟨heq, -⟩ | ⟨-, hspec⟩
  · rw [heq]
    rfl
  · exact hspec.frame.processes

namespace RegistrySound

/-- Tearing an instance down marks it dead. The binding that may end with it does not matter. -/
theorem tearDown (h : RegistrySound w (id :: out)) (t : ThreadId) (tok : Token) :
    RegistrySound (w.tearDown t tok id) out := by
  rcases tearDown_cases w t tok id with ⟨heq, -⟩ | ⟨-, hspec⟩
  · rw [heq]
    exact h.mark
  · exact h.mark.of_local hspec.frame

/-- The key of a process may be released once the process is shut down. -/
theorem releaseKey (h : RegistrySound w out) (t : ThreadId)
    (hdown : ∀ p, w.processes.get? tok = some p → p.phase = .shutDown) :
    RegistrySound (w.releaseKey t tok) out := by
  have hmodify : RegistrySound (w.modifyProcess tok fun p => { p with released := true }) out := by
    cases hp : w.processes.get? tok with
    | some p => exact h.release hp (hdown p hp)
    | none =>
      refine h.forget ?_ rfl rfl rfl
      intro tok' p' hp'
      rw [get?_modifyProcess] at hp'
      split at hp'
      · next heq =>
        rw [heq, hp] at hp'
        cases hp'
      · exact hp'
  exact hmodify.of_local (local_setThread _ _ _)

end RegistrySound

/-! ## The whole invariant -/

/-- What holds of the world at every point of a run, where operations under way have taken the
instances `out` from their registries and closures under way use the storages `uses`. -/
structure Sound (w : World) (out : List InstanceId) (uses : List (ThreadId × StorageId)) : Prop where
  registry : RegistrySound w out
  bindings : BindingsSound w uses

namespace Sound

theorem empty : Sound {} [] [] := ⟨registrySound_empty, bindingsSound_empty⟩

theorem calm (h : Sound w out uses) (hc : Calm w w') : Sound w' out uses :=
  ⟨h.registry.calm hc, h.bindings.calm hc⟩

theorem start (h : Sound w out uses) (c : Config) : Sound (w.start c).2 out uses :=
  ⟨h.registry.start c, h.bindings.of_grows (fun _ => rfl) (.start w c)⟩

/-- To bind a thread keeps everything sound, whether it succeeds or not. -/
theorem bind (h : Sound w out uses) (t : ThreadId) (tok : Token) (id : InstanceId) :
    Sound (w.bind t tok id).2 out uses := by
  unfold World.bind
  split
  · exact h
  · split
    · exact h
    · next howner =>
      obtain ⟨i, hi, hown⟩ := checkOwner_ok.1 howner
      split
      · exact h
      · refine ⟨h.registry.of_local (bindThread_spec w t tok id).frame, ?_⟩
        refine h.bindings.bindThread t (h.registry.instanceDrawn id i hi).1 ?_
        intro j hj
        rw [hi] at hj
        exact Option.some.inj hj ▸ hown

theorem release (h : Sound w out uses) {id? : Option InstanceId}
    (hr : w.release t tok = .ok (id?, w')) : Sound w' out uses := by
  obtain ⟨p, -, hu⟩ := bind_eq_ok.1 hr
  have hspec := unbindThread_ok hu
  exact ⟨h.registry.of_local hspec.frame, h.bindings.unbind hspec⟩

theorem withoutThread (h : Sound w out uses) (t : ThreadId) : Sound (w.withoutThread t) out uses :=
  ⟨h.registry.of_local (local_withoutThread w t), h.bindings.withoutThread t⟩

/-- To register an instance keeps everything sound, whether it succeeds or not. -/
theorem enroll (h : Sound w out uses) (t : ThreadId) (tok : Token) (parent? : Option InstanceId) :
    Sound (w.enroll t tok parent?).2 out uses := by
  refine ⟨h.registry.enroll t tok parent?, h.bindings.of_grows ?_ (.enroll w t tok parent?)⟩
  intro t'
  rcases enroll_cases w t tok parent? with ⟨e, heq⟩ | ⟨e, heq⟩ | ⟨p, -, -, heq⟩ <;> rw [heq] <;> rfl

/-- To take an instance from its registry keeps everything sound, with this instance still to be
marked dead. -/
theorem withdraw (h : Sound w out uses) (hw : w.withdraw t tok id = .ok w') :
    Sound w' (id :: out) uses := by
  refine ⟨h.registry.withdraw hw, h.bindings.of_grows ?_ (.withdraw hw)⟩
  obtain ⟨p, -, -, -, rfl⟩ := withdraw_ok hw
  exact fun _ => rfl

/-- The beginning of a shutdown keeps everything sound, with all instances of the process still to
be marked dead. -/
theorem beginShutdown (h : Sound w out uses) {ids : List InstanceId}
    (hw : w.beginShutdown t tok = .ok (ids, w')) : Sound w' (ids ++ out) uses := by
  refine ⟨h.registry.beginShutdown hw, h.bindings.of_grows ?_ (.beginShutdown hw)⟩
  obtain ⟨p, -, -, rfl⟩ := beginShutdown_ok hw
  exact fun _ => rfl

/-- The end of an instance marks it dead, and then it is not one of those any more. -/
theorem tearDown (h : Sound w (id :: out) uses) (t : ThreadId) (tok : Token) :
    Sound (w.tearDown t tok id) out uses := by
  refine ⟨h.registry.tearDown t tok, ?_⟩
  have hmark : BindingsSound (w.marked id) uses := h.bindings.of_grows (fun _ => rfl) (.mark w id)
  rcases tearDown_cases w t tok id with ⟨heq, -⟩ | ⟨-, hspec⟩
  · rw [heq]
    exact hmark
  · exact hmark.unbind hspec

/-- The key of a process is given up once the process is shut down, or is no more. -/
theorem releaseKey (h : Sound w out uses) (t : ThreadId)
    (hdown : ∀ p, w.processes.get? tok = some p → p.phase = .shutDown) :
    Sound (w.releaseKey t tok) out uses := by
  refine ⟨h.registry.releaseKey t hdown, BindingsSound.dropSlot ?_ t tok⟩
  exact h.bindings.of_grows (fun _ => rfl)
    (.of_modifyProcess (fun _ _ _ hid => hid) (fun _ => rfl) (fun _ hd => hd) fun _ _ => rfl)

/-- To open a closure on a binding keeps everything sound, with its storage in use. -/
theorem borrow (h : Sound w out uses) {handle : Handle} (hb : w.borrow t handle = .ok w') :
    Sound w' out ((t, handle.storage) :: uses) :=
  ⟨h.registry.of_local (borrow_ok hb).frame, h.bindings.borrow (borrow_ok hb)⟩

theorem endBorrow {s : StorageId} (h : Sound w out ((t, s) :: uses)) :
    Sound (w.endBorrow t s) out uses :=
  ⟨h.registry.of_local (endBorrow_spec w t s).frame, h.bindings.endBorrow⟩

end Sound

end TieredState.World
