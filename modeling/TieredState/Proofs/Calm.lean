import TieredState.World.Process
import TieredState.Proofs.Chains

/-!
# Calm changes

Most of what an embedder does touches neither the registries, nor the life of an instance, nor a
binding: it changes variables, texts, counts, hooks, or the locks that a thread holds. Such a change
of the world is *calm*. What the theory of the registry and of the bindings says of a world
depends only on what calm changes keep, so it is carried over each of them at once.

* `Calm` — the two worlds agree on owners, lives, phases, registries, bindings, and on which
  storages there are and are in use. It is an equivalence.
* `Calm.of_...` — changes of one part of a world that are calm.
* `calm_...` — the operations that are calm, one by one.
-/

namespace TieredState

/-- What the registry and the bindings depend on in an instance: its owner, its parent, and whether
it is alive. -/
def Instance.standing (i : Instance) : Token × Option InstanceId × Bool :=
  (i.owner, i.parent?, i.alive)

/-- What the registry and the bindings depend on in a process. -/
def Process.standing (p : Process) : Phase × Nat × Registry × Bool :=
  (p.phase, p.maxInstances, p.registry, p.released)

/-- Whether there is a storage, and whether it is in use. -/
def Thread.usage (th : Thread) (s : StorageId) : Option Bool :=
  (th.storages.get? s).map (·.borrowed)

namespace World

/-! ## Parts of a changed world -/

section Parts

variable (w : World) (t t' : ThreadId) (th : Thread) (tok : Token) (id : InstanceId)
  (f : Process → Process) (g : Instance → Instance)

/-- A thread that is written is read back, and no other thread changes. -/
@[simp] theorem thread_setThread :
    (w.setThread t th).thread t' = if t' = t then th else w.thread t' := by
  unfold thread setThread
  rw [Table.get?_insert]
  split <;> rfl

@[simp] theorem instances_modifyProcess : (w.modifyProcess tok f).instances = w.instances := rfl

@[simp] theorem thread_modifyProcess : (w.modifyProcess tok f).thread t = w.thread t := rfl

/-- Only the process that is changed is found changed. -/
@[simp] theorem get?_modifyProcess (tok' : Token) :
    (w.modifyProcess tok f).processes.get? tok' =
      if tok' = tok then (w.processes.get? tok').map f else w.processes.get? tok' :=
  Table.get?_modify _ _ _ _

/-- Only the instance that is changed is found changed. -/
@[simp] theorem get?_modifyInstance (id' : InstanceId) :
    (w.modifyInstance id g).instances.get? id' =
      if id' = id then (w.instances.get? id').map g else w.instances.get? id' :=
  Table.get?_modify _ _ _ _

/-- What was written for a thread is what it has. -/
theorem thread_setThread_self : (w.setThread t th).thread t = th := by
  rw [thread_setThread, if_pos rfl]

/-- A process that is found after a change is the changed one, or one that was there before. -/
theorem get?_modifyProcess_eq_some {tok' : Token} {p' : Process} :
    (w.modifyProcess tok f).processes.get? tok' = some p' ↔
      (tok' = tok ∧ ∃ p, w.processes.get? tok = some p ∧ p' = f p) ∨
        (tok' ≠ tok ∧ w.processes.get? tok' = some p') := by
  rw [get?_modifyProcess]
  by_cases h : tok' = tok
  · subst h
    simp [Option.map_eq_some_iff, eq_comm (a := p')]
  · simp [h]

end Parts

/-- An instance is live if it exists and is alive. -/
theorem isLive_iff {w : World} {id : InstanceId} :
    w.isLive id = true ↔ ∃ i, w.instances.get? id = some i ∧ i.alive = true := by
  unfold isLive
  cases w.instances.get? id <;> simp

/-! ## The relation -/

/-- The worlds agree on everything that the registries and the bindings depend on. -/
structure Calm (w w' : World) : Prop where
  instances : ∀ id,
    (w'.instances.get? id).map Instance.standing = (w.instances.get? id).map Instance.standing
  processes : ∀ tok,
    (w'.processes.get? tok).map Process.standing = (w.processes.get? tok).map Process.standing
  bindings : ∀ t tok, (w'.thread t).binding? tok = (w.thread t).binding? tok
  usage : ∀ t s, (w'.thread t).usage s = (w.thread t).usage s
  nextStorage : ∀ t, (w'.thread t).nextStorage = (w.thread t).nextStorage
  nextInstance : w'.nextInstance = w.nextInstance
  nextToken : w'.nextToken = w.nextToken

namespace Calm

variable {w w' w'' : World}

theorem refl (w : World) : Calm w w :=
  ⟨fun _ => rfl, fun _ => rfl, fun _ _ => rfl, fun _ _ => rfl, fun _ => rfl, rfl, rfl⟩

theorem symm (h : Calm w w') : Calm w' w where
  instances id := (h.instances id).symm
  processes tok := (h.processes tok).symm
  bindings t tok := (h.bindings t tok).symm
  usage t s := (h.usage t s).symm
  nextStorage t := (h.nextStorage t).symm
  nextInstance := h.nextInstance.symm
  nextToken := h.nextToken.symm

theorem trans (h : Calm w w') (h' : Calm w' w'') : Calm w w'' where
  instances id := (h'.instances id).trans (h.instances id)
  processes tok := (h'.processes tok).trans (h.processes tok)
  bindings t tok := (h'.bindings t tok).trans (h.bindings t tok)
  usage t s := (h'.usage t s).trans (h.usage t s)
  nextStorage t := (h'.nextStorage t).trans (h.nextStorage t)
  nextInstance := h'.nextInstance.trans h.nextInstance
  nextToken := h'.nextToken.trans h.nextToken

/-! ### What a calm change keeps -/

/-- An instance was there before a calm change, with the same standing. -/
theorem instance_of (h : Calm w w') {id : InstanceId} {i' : Instance}
    (hi : w'.instances.get? id = some i') :
    ∃ i, w.instances.get? id = some i ∧ i.owner = i'.owner ∧ i.parent? = i'.parent? ∧
      i.alive = i'.alive := by
  have hmap := h.instances id
  rw [hi, Option.map_some, eq_comm, Option.map_eq_some_iff] at hmap
  obtain ⟨i, hget, hstand⟩ := hmap
  simp only [Instance.standing, Prod.mk.injEq] at hstand
  exact ⟨i, hget, hstand.1, hstand.2.1, hstand.2.2⟩

/-- A process was there before a calm change, with the same standing. -/
theorem process_of (h : Calm w w') {tok : Token} {p' : Process}
    (hp : w'.processes.get? tok = some p') :
    ∃ p, w.processes.get? tok = some p ∧ p.phase = p'.phase ∧ p.maxInstances = p'.maxInstances ∧
      p.registry = p'.registry ∧ p.released = p'.released := by
  have hmap := h.processes tok
  rw [hp, Option.map_some, eq_comm, Option.map_eq_some_iff] at hmap
  obtain ⟨p, hget, hstand⟩ := hmap
  simp only [Process.standing, Prod.mk.injEq] at hstand
  exact ⟨p, hget, hstand.1, hstand.2.1, hstand.2.2.1, hstand.2.2.2⟩

/-- Calm changes end no instance and bring none back. -/
theorem isLive (h : Calm w w') (id : InstanceId) : w'.isLive id = w.isLive id := by
  have key : ∀ {v v' : World}, Calm v v' → v'.isLive id = true → v.isLive id = true := by
    intro v v' hv hlive
    obtain ⟨i', hi', halive⟩ := isLive_iff.1 hlive
    obtain ⟨i, hi, -, -, hsame⟩ := hv.instance_of hi'
    exact isLive_iff.2 ⟨i, hi, hsame.trans halive⟩
  exact Bool.eq_iff_iff.2 ⟨key h, key h.symm⟩

/-- In calm changes every binding keeps its state. -/
theorem bindingState (h : Calm w w') (t : ThreadId) (tok : Token) :
    w'.bindingState t tok = w.bindingState t tok := by
  unfold World.bindingState
  rw [h.bindings t tok]
  cases (w.thread t).binding? tok with
  | none => rfl
  | some b => simp only [h.isLive]

/-! ### Changes of one part -/

/-- A process may change in all that no registry and no binding depends on. -/
theorem of_modifyProcess {tok : Token} {f : Process → Process}
    (hf : ∀ p, (f p).standing = p.standing) : Calm w (w.modifyProcess tok f) where
  instances _ := rfl
  processes tok' := by
    rw [get?_modifyProcess]
    split
    · rw [Option.map_map]
      congr 1
      exact funext hf
    · rfl
  bindings _ _ := rfl
  usage _ _ := rfl
  nextStorage _ := rfl
  nextInstance := rfl
  nextToken := rfl

/-- An instance may change in all that no registry and no binding depends on. -/
theorem of_modifyInstance {id : InstanceId} {f : Instance → Instance}
    (hf : ∀ i, (f i).standing = i.standing) : Calm w (w.modifyInstance id f) where
  instances id' := by
    rw [get?_modifyInstance]
    split
    · rw [Option.map_map]
      congr 1
      exact funext hf
    · rfl
  processes _ := rfl
  bindings _ _ := rfl
  usage _ _ := rfl
  nextStorage _ := rfl
  nextInstance := rfl
  nextToken := rfl

/-- A thread may change in all but its bindings and its storages. -/
theorem of_setThread {t : ThreadId} {th : Thread}
    (hslots : ∀ tok, th.binding? tok = (w.thread t).binding? tok)
    (husage : ∀ s, th.usage s = (w.thread t).usage s)
    (hnext : th.nextStorage = (w.thread t).nextStorage) : Calm w (w.setThread t th) where
  instances _ := rfl
  processes _ := rfl
  bindings t' tok := by
    rw [thread_setThread]
    split
    · next h => rw [h, hslots]
    · rfl
  usage t' s := by
    rw [thread_setThread]
    split
    · next h => rw [h, husage]
    · rfl
  nextStorage t' := by
    rw [thread_setThread]
    split
    · next h => rw [h, hnext]
    · rfl
  nextInstance := rfl
  nextToken := rfl

end Calm

/-! ## Calm operations -/

variable {w w' : World} {t : ThreadId} {tok : Token}

/-- To write a thread as it is changes nothing that matters. -/
theorem calm_setThread_thread (w : World) (t : ThreadId) : Calm w (w.setThread t (w.thread t)) :=
  .of_setThread (fun _ => rfl) (fun _ => rfl) rfl

/-- A lock that is taken is put on the list of those that the thread holds. -/
theorem take_ok {l : Lock} (h : w.take t l = .ok w') :
    ∃ held, (w.thread t).held.acquire l = .ok held ∧
      w' = w.setThread t { w.thread t with held } := by
  unfold take at h
  split at h
  · next held hacquire => exact ⟨held, hacquire, (Except.ok.inj h).symm⟩
  · cases h

theorem calm_take {l : Lock} (h : w.take t l = .ok w') : Calm w w' := by
  obtain ⟨held, -, rfl⟩ := take_ok h
  exact .of_setThread (fun _ => rfl) (fun _ => rfl) rfl

theorem calm_giveBack (w : World) (t : ThreadId) (l : Lock) : Calm w (w.giveBack t l) :=
  .of_setThread (fun _ => rfl) (fun _ => rfl) rfl

theorem calm_modifyThreadVars (w : World) (t : ThreadId) (s : StorageId)
    (f : ThreadVars → ThreadVars) : Calm w (w.modifyThreadVars t s f) := by
  refine .of_setThread (fun _ => rfl) (fun s' => ?_) rfl
  unfold Thread.usage
  rw [Table.get?_modify]
  split
  · rw [Option.map_map]
    rfl
  · rfl

/-- A process is asked for, a lock is checked, and then the process is changed. -/
theorem calm_guarded {α : Type} {x : Except AccessError Process} {y : Except AccessError Unit}
    {a : α} (f : Process → α × (Process → Process)) (hf : ∀ p q, ((f p).2 q).standing = q.standing)
    (h : (do
      let p ← x
      y
      return ((f p).1, w.modifyProcess tok (f p).2)) = .ok (a, w')) : Calm w w' := by
  obtain ⟨p, -, h⟩ := bind_eq_ok.1 h
  obtain ⟨_, -, h⟩ := bind_eq_ok.1 h
  obtain ⟨-, rfl⟩ := Prod.mk.inj (Except.ok.inj h)
  exact .of_modifyProcess (hf p)

theorem calm_addHook {e : HookEvent} {c : CallbackId} {id : HookId}
    (h : w.addHook t tok e c = .ok (id, w')) : Calm w w' :=
  calm_guarded (fun p => ((p.hooks.register e c).1, fun q =>
    { q with hooks := (p.hooks.register e c).2 })) (fun _ _ => rfl) h

theorem calm_removeHook {id : HookId} {found : Bool}
    (h : w.removeHook t tok id = .ok (found, w')) : Calm w w' :=
  calm_guarded (fun p => ((p.hooks.remove id).1, fun q => { q with hooks := (p.hooks.remove id).2 }))
    (fun _ _ => rfl) h

theorem calm_setShPath {text old : String} (h : w.setShPath t tok text = .ok (old, w')) :
    Calm w w' :=
  calm_guarded (fun p => (p.shPath, fun q => { q with shPath := text })) (fun _ _ => rfl) h

theorem calm_setProgramName {text old : String}
    (h : w.setProgramName t tok text = .ok (old, w')) : Calm w w' :=
  calm_guarded (fun p => (p.programName, fun q => { q with programName := text })) (fun _ _ => rfl) h

theorem calm_changeOpRefs {f : OpRefTable → Nat × OpRefTable} {n : Nat}
    (h : w.changeOpRefs t tok f = .ok (n, w')) : Calm w w' :=
  calm_guarded (fun p => ((f p.opRefs).1, fun q => { q with opRefs := (f p.opRefs).2 }))
    (fun _ _ => rfl) h

theorem calm_setStartupFlag {field : String} {f : Process → Process}
    (hf : ∀ p, (f p).standing = p.standing) (h : w.setStartupFlag t tok field f = .ok w') :
    Calm w w' := by
  obtain ⟨_, -, h⟩ := bind_eq_ok.1 h
  dsimp only at h
  split at h
  · rw [← Except.ok.inj h]
    exact .of_modifyProcess hf
  · cases h
  · cases h

theorem calm_changeAllocStats {f : AllocStats → AllocStats}
    (h : w.changeAllocStats t tok f = .ok w') : Calm w w' := by
  obtain ⟨p, -, h⟩ := bind_eq_ok.1 h
  obtain ⟨_, -, h⟩ := bind_eq_ok.1 h
  rw [← Except.ok.inj h]
  exact .of_modifyProcess fun _ => rfl

theorem calm_install (w : World) (tok : Token) : Calm w (w.install tok).2 := by
  unfold install
  split
  · exact .refl w
  · exact ⟨fun _ => rfl, fun _ => rfl, fun _ _ => rfl, fun _ _ => rfl, fun _ => rfl, rfl, rfl⟩

end World

end TieredState
