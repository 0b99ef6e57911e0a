import TieredState.Proofs.Move

/-!
# What holds at every point of a run

`Machine.Sound m` is the invariant of runs: registries, lives, bindings and storages in use fit
together with what is under way, and the processes that are being shut down are past their life. A
move keeps it, and so does the sweep at the end of a step. Along the way the world only grows.

* `sound_of_run` — runs keep the invariant, and what has ended in a run does not come back later in it.
* `sound_of_reachable` — the invariant holds wherever a program comes to by orderly steps.
-/

namespace TieredState

namespace World

variable {w w' : World} {t : ThreadId} {tok : Token} {id : InstanceId} {out : List InstanceId}
  {uses : List (ThreadId × StorageId)}

/-! ## Growth, operation by operation -/

/-- A call to bind concerns its own thread only. -/
theorem local_bind (w : World) (t : ThreadId) (tok : Token) (id : InstanceId) :
    Local t w (w.bind t tok id).2 := by
  unfold World.bind
  split
  · exact .refl t w
  · split
    · exact .refl t w
    · split
      · exact .refl t w
      · exact (bindThread_spec w t tok id).frame

/-- A release concerns its own thread only. -/
theorem local_release {id? : Option InstanceId} (h : w.release t tok = .ok (id?, w')) :
    Local t w w' := by
  obtain ⟨p, -, hu⟩ := bind_eq_ok.1 h
  exact (unbindThread_ok hu).frame

namespace Grows

/-- With the instance marked dead, the world grows when the hooks' operation tears it down. -/
theorem tearDown (w : World) (t : ThreadId) (tok : Token) (id : InstanceId) :
    Grows (w.marked id) (w.tearDown t tok id) := by
  rcases tearDown_cases w t tok id with ⟨heq, -⟩ | ⟨-, hspec⟩
  · rw [heq]
    exact .refl _
  · exact .of_local hspec.frame

theorem releaseKey (w : World) (t : ThreadId) (tok : Token) : Grows w (w.releaseKey t tok) := by
  have hmodify : Grows w (w.modifyProcess tok fun p => { p with released := true }) :=
    .of_modifyProcess (fun _ _ _ hid => hid) (fun _ => rfl) (fun _ hd => hd) fun _ _ => rfl
  exact hmodify.trans (.of_local (local_setThread _ _ _))

end Grows

/-! ## The sweep -/

/-- A process that is dropped takes the slot for it from the thread that drops it, and from no
other. -/
theorem thread_dropProcess (w : World) (t t' : ThreadId) (tok : Token) :
    (Session.dropProcess w t tok).thread t' =
      if t' = t then (w.thread t).dropSlot tok else w.thread t' :=
  thread_setThread _ _ _ _

/-- Only the process that is dropped is gone. -/
theorem get?_dropProcess (w : World) (t : ThreadId) (tok tok' : Token) :
    (Session.dropProcess w t tok).processes.get? tok' =
      if tok' = tok then none else w.processes.get? tok' := by
  show ((w.modifyProcess tok fun p => { p with released := true }).processes.erase tok).get? tok' = _
  rw [Table.get?_erase]
  split
  · rfl
  · next hne => rw [get?_modifyProcess, if_neg hne]

end World

namespace Session

open World

/-- The processes that a sweep drops: no name refers to them, nor does the program as a whole, nor what
is under way and holds `tokens`. -/
def lost (s : Session) (tokens : List Token) : List Token :=
  s.world.processes.keys.filter fun tok =>
    tok ∉ s.processes.values ++ s.world.installed?.toList ++ tokens

/-- Processes that are dropped one after the other go, and so do their slots on the thread that drops
them. -/
theorem dropProcesses_spec (w : World) (t : ThreadId) (lost : List Token) :
    let w' := lost.foldl (fun w tok => dropProcess w t tok) w
    (∀ tok, w'.processes.get? tok = if tok ∈ lost then none else w.processes.get? tok) ∧
      (∀ t', w'.thread t' = if t' = t then lost.foldl Thread.dropSlot (w.thread t) else w.thread t') ∧
      w'.instances = w.instances ∧ w'.nextInstance = w.nextInstance ∧ w'.nextToken = w.nextToken ∧
      w'.installed? = w.installed? := by
  induction lost generalizing w with
  | nil =>
    refine ⟨fun _ => rfl, fun t' => ?_, rfl, rfl, rfl, rfl⟩
    split
    · next heq => rw [heq, List.foldl_nil, List.foldl_nil]
    · rfl
  | cons tok' lost ih =>
    obtain ⟨hprocesses, hthread, hrest⟩ := ih (dropProcess w t tok')
    refine ⟨fun tok => ?_, fun t' => ?_, hrest⟩
    · rw [List.foldl_cons, hprocesses, get?_dropProcess]
      by_cases hlost : tok ∈ lost
      · rw [if_pos hlost, if_pos (List.mem_cons_of_mem _ hlost)]
      · rw [if_neg hlost]
        by_cases heq : tok = tok'
        · rw [if_pos heq, if_pos (heq ▸ List.mem_cons_self)]
        · rw [if_neg heq, if_neg fun hmem => (List.mem_cons.1 hmem).elim heq hlost]
    · rw [List.foldl_cons, hthread, thread_dropProcess, thread_dropProcess, if_pos rfl]
      split <;> rfl

variable (s : Session) (t : ThreadId) (tokens : List Token) (ids : List InstanceId)

/-- After a sweep the processes that are lost are gone, and the others are as they were. -/
theorem processes_sweep (tok : Token) : (s.sweep t tokens ids).world.processes.get? tok =
    if tok ∈ s.lost tokens then none else s.world.processes.get? tok :=
  (dropProcesses_spec s.world t (s.lost tokens)).1 tok

/-- After a sweep the sweeping thread has no slot for what is lost, and other threads keep theirs.
-/
theorem thread_sweep (t' : ThreadId) : (s.sweep t tokens ids).world.thread t' =
    if t' = t then (s.lost tokens).foldl Thread.dropSlot (s.world.thread t) else s.world.thread t' :=
  (dropProcesses_spec s.world t (s.lost tokens)).2.1 t'

/-- The instances that stay are named, or held, or registered with a process that stays. -/
theorem instances_sweep (id : InstanceId) : (s.sweep t tokens ids).world.instances.get? id =
    (s.world.instances.get? id).filter fun _ => (s.instances.values ++ ids).contains id ||
      (s.sweep t tokens ids).world.processes.values.any (·.registry.contains id) := by
  rw [← (dropProcesses_spec s.world t (s.lost tokens)).2.2.1]
  exact Table.get?_filter _ _ _

theorem nextInstance_sweep : (s.sweep t tokens ids).world.nextInstance = s.world.nextInstance :=
  (dropProcesses_spec s.world t (s.lost tokens)).2.2.2.1

theorem nextToken_sweep : (s.sweep t tokens ids).world.nextToken = s.world.nextToken :=
  (dropProcesses_spec s.world t (s.lost tokens)).2.2.2.2.1

theorem installed?_sweep : (s.sweep t tokens ids).world.installed? = s.world.installed? :=
  (dropProcesses_spec s.world t (s.lost tokens)).2.2.2.2.2

variable {s t tokens ids}

/-- A process is lost if nothing refers to it. -/
theorem mem_lost {tok : Token} : tok ∈ s.lost tokens ↔ (∃ p, s.world.processes.get? tok = some p) ∧
    tok ∉ s.processes.values ++ s.world.installed?.toList ++ tokens := by
  unfold lost
  rw [List.mem_filter, decide_eq_true_eq, Table.mem_keys]

/-- A process that is there after a sweep is not one of the lost ones. -/
theorem get?_of_sweep {tok : Token} {p : Process}
    (h : (s.sweep t tokens ids).world.processes.get? tok = some p) :
    tok ∉ s.lost tokens ∧ s.world.processes.get? tok = some p := by
  rw [processes_sweep] at h
  split at h
  · cases h
  · next hlost => exact ⟨hlost, h⟩

/-- What is there after a sweep was there before it. -/
theorem instance_of_sweep {id : InstanceId} {i : Instance}
    (h : (s.sweep t tokens ids).world.instances.get? id = some i) :
    s.world.instances.get? id = some i := by
  rw [instances_sweep, Option.filter_eq_some_iff] at h
  exact h.1

end Session

namespace World

open Session

/-- What remains after a sweep on the thread `t`: processes and instances may go, but not an
instance of `ids` or of a registry that stays, and bindings under the processes that stay are as they
were. -/
structure Swept (ids : List InstanceId) (w w' : World) : Prop where
  processes : ∀ tok p, w'.processes.get? tok = some p → w.processes.get? tok = some p
  instances : ∀ id i, w'.instances.get? id = some i → w.instances.get? id = some i
  kept : ∀ id, (id ∈ ids ∨ ∃ tok p, w'.processes.get? tok = some p ∧ id ∈ p.registry.members) →
    w'.instances.get? id = w.instances.get? id
  bindings : ∀ t tok p, w'.processes.get? tok = some p →
    (w'.thread t).binding? tok = (w.thread t).binding? tok
  nextInstance : w'.nextInstance = w.nextInstance
  nextToken : w'.nextToken = w.nextToken

/-- All is as sound without the process that is dropped. -/
theorem sound_dropProcess (h : Sound w out uses) (t : ThreadId) (tok : Token) :
    Sound (Session.dropProcess w t tok) out uses where
  registry := by
    refine h.registry.forget ?_ rfl rfl rfl
    intro tok' p hp
    rw [get?_dropProcess] at hp
    split at hp
    · cases hp
    · exact hp
  bindings :=
    have hdrop := h.bindings.dropSlot t tok
    ⟨hdrop.threads, hdrop.used, hdrop.bound⟩

/-- A sweep drops processes and instances, whatever is out of the registries. -/
theorem swept_sweep {s : Session} (h : Sound s.world out uses) (t : ThreadId) (toks : List Token)
    (ids : List InstanceId) : (s.sweep t toks ids).world.BindingsSound uses ∧
      Swept ids s.world (s.sweep t toks ids).world := by
  constructor
  -- processes are dropped first, one after the other, and then the instances that nothing keeps
  · have hsound : Sound ((s.lost toks).foldl (fun w tok => Session.dropProcess w t tok) s.world) out uses :=
      List.foldlRecOn (motive := fun w => Sound w out uses) (s.lost toks) _ h
        fun w hw tok _ => sound_dropProcess hw t tok
    refine ⟨hsound.bindings.threads, hsound.bindings.used, fun t' tok b hb => ?_⟩
    obtain ⟨hlt, hown⟩ := hsound.bindings.bound t' tok b hb
    refine ⟨hlt, fun i hi => hown i ?_⟩
    rw [(dropProcesses_spec s.world t (s.lost toks)).2.2.1]
    exact instance_of_sweep hi
  · refine ⟨fun tok p hp => (get?_of_sweep hp).2, fun _ _ hi => instance_of_sweep hi, fun id hkept => ?_,
      fun t' tok p hp => ?_, nextInstance_sweep _ _ _ _, nextToken_sweep _ _ _ _⟩
    · -- what is held or registered passes the filter
      have hkeep : ((s.instances.values ++ ids).contains id ||
          (s.sweep t toks ids).world.processes.values.any (·.registry.contains id)) = true := by
        rw [Bool.or_eq_true, List.any_eq_true]
        rcases hkept with hid | ⟨tok, p, hp, hid⟩
        · exact .inl (List.contains_iff_mem.2 (List.mem_append_right _ hid))
        · exact .inr ⟨p, Table.mem_values.2 ⟨tok, hp⟩, List.contains_iff_mem.2 hid⟩
      rw [instances_sweep, hkeep]
      cases s.world.instances.get? id <;> rfl
    · rw [thread_sweep]
      split
      · next heq =>
        subst heq
        unfold Thread.binding?
        rw [Thread.slots_dropSlots, if_neg (get?_of_sweep hp).1]
      · rfl

/-- Instances may go that are not registered. Of those that are out, some are left. -/
theorem RegistrySound.swept {ids : List InstanceId} (h : RegistrySound w out) (hs : Swept ids w w') :
    RegistrySound w' (out.filter w'.isLive) where
  member tok p id hp hid := by
    -- what is registered passes the filter, so it is there as it was
    obtain ⟨hnot, i, hi, hrest⟩ := h.member tok p id (hs.processes tok p hp) hid
    refine ⟨fun hmem => hnot (List.mem_filter.1 hmem).1, i, ?_, hrest⟩
    rw [hs.kept id (.inr ⟨tok, p, hp, hid⟩)]
    exact hi
  ascending tok p hp := h.ascending tok p (hs.processes tok p hp)
  limited tok p hp := h.limited tok p (hs.processes tok p hp)
  outLive id hid := (List.mem_filter.1 hid).2
  outNodup := h.outNodup.filter _
  housed id i p hi halive hp := by
    have hlive : w'.isLive id = true := isLive_iff.2 ⟨i, hi, halive⟩
    exact (h.housed id i p (hs.instances id i hi) halive (hs.processes i.owner p hp)).imp_right
      fun hout => List.mem_filter.2 ⟨hout, hlive⟩
  instanceDrawn id i hi := by
    rw [hs.nextInstance, hs.nextToken]
    exact h.instanceDrawn id i (hs.instances id i hi)
  tokenDrawn tok p hp := by
    rw [hs.nextToken]
    exact h.tokenDrawn tok p (hs.processes tok p hp)
  released tok p hp := h.released tok p (hs.processes tok p hp)

/-- A sweep keeps everything sound, as long as what is under way keeps in existence what it has to
mark dead. -/
theorem sweep_spec {s : Session} {ids : List InstanceId} (h : Sound s.world out uses)
    (hout : out ⊆ ids) (t : ThreadId) (toks : List Token) :
    Sound (s.sweep t toks ids).world out uses ∧ Swept ids s.world (s.sweep t toks ids).world := by
  obtain ⟨hbindings, hswept⟩ := swept_sweep h t toks ids
  have hkept : out.filter (s.sweep t toks ids).world.isLive = out := by
    refine List.filter_eq_self.2 fun id hid => ?_
    have hlive := h.registry.outLive id hid
    unfold isLive at hlive ⊢
    rw [hswept.kept id (.inl (hout hid))]
    exact hlive
  refine ⟨⟨?_, hbindings⟩, hswept⟩
  rw [← hkept]
  exact h.registry.swept hswept

/-- Sweeps bring nothing back. -/
theorem Swept.grows {ids : List InstanceId} (h : Swept ids w w') : Grows w w' :=
  .forget h.processes h.instances h.nextInstance h.nextToken

end World

/-! ## Moves keep the invariant -/

open World

/-- The instances that operations under way have taken from registries. -/
def View.condemned (v : View) : List InstanceId := v.charges.map (·.2)

/-- The invariant of runs. -/
structure View.Sound (v : View) : Prop where
  world : v.world.Sound v.condemned v.uses
  owners : ∀ c ∈ v.charges, c.2.number < v.world.nextInstance ∧
    ∀ i, v.world.instances.get? c.2 = some i → i.owner = c.1
  closing : ∀ tok ∈ v.closing, tok.number < v.world.nextToken ∧
    ∀ p, v.world.processes.get? tok = some p → p.phase = .shutDown

namespace View.Sound

variable {v : View} {w : World}

/-- What belongs to a process goes on to do so. -/
theorem owners_of_grows (h : v.Sound) (hg : Grows v.world w) : ∀ c ∈ v.charges,
    c.2.number < w.nextInstance ∧ ∀ i, w.instances.get? c.2 = some i → i.owner = c.1 := by
  intro c hmem
  obtain ⟨hlt, hown⟩ := h.owners c hmem
  refine ⟨Nat.lt_of_lt_of_le hlt hg.nextInstance, fun i' hi' => ?_⟩
  obtain ⟨i, hi, howner, -⟩ := hg.instances c.2 i' hi' hlt
  exact howner ▸ hown i hi

/-- What is shut down stays so. -/
theorem closing_of_grows (h : v.Sound) (hg : Grows v.world w) : ∀ tok ∈ v.closing,
    tok.number < w.nextToken ∧ ∀ p, w.processes.get? tok = some p → p.phase = .shutDown := by
  intro tok hmem
  obtain ⟨hlt, hdown⟩ := h.closing tok hmem
  refine ⟨Nat.lt_of_lt_of_le hlt hg.nextToken, fun p' hp' => ?_⟩
  obtain ⟨p, hp, -, hkeep, -⟩ := hg.processes tok p' hp' hlt
  exact hkeep (hdown p hp)

/-- A change of the world that has nothing to do with what is under way. -/
theorem of_grows (h : v.Sound) (hw : w.Sound v.condemned v.uses) (hg : Grows v.world w) :
    View.Sound { v with world := w } :=
  ⟨hw, h.owners_of_grows hg, h.closing_of_grows hg⟩

theorem calm (h : v.Sound) (hc : Calm v.world w) : View.Sound { v with world := w } :=
  h.of_grows (h.world.calm hc) (.calm hc)

end View.Sound

namespace Machine

variable {m m' : Machine} {v v' : View}

/-- Closures that end one after another keep everything sound. -/
theorem EndUses.sound {w w' : World} {out : List InstanceId} {ended uses : List (ThreadId × StorageId)}
    (he : EndUses w ended w') (h : w.Sound out (ended ++ uses)) : w'.Sound out uses := by
  induction he with
  | done hc => exact h.calm hc
  | calm hc _ ih => exact ih (h.calm hc)
  | storage _ ih => exact ih h.endBorrow

/-- The end of closures brings nothing back. -/
theorem EndUses.grows {w w' : World} {ended : List (ThreadId × StorageId)}
    (he : EndUses w ended w') : Grows w w' := by
  induction he with
  | done hc => exact .calm hc
  | calm hc _ ih => exact (Grows.calm hc).trans ih
  | storage _ ih => exact (Grows.of_local (endBorrow_spec _ _ _).frame).trans ih

/-- No move brings anything back. -/
theorem Move.grows (h : Move m v v') : Grows v.world v'.world := by
  cases h with
  | calm hc => exact .calm hc
  | start c hc => exact (Grows.start v.world c).trans (.calm hc)
  | endThread _ => exact .of_local (local_withoutThread _ _)
  | bind _ => exact .of_local (local_bind _ _ _ _)
  | release _ hr => exact .of_local (local_release hr)
  | enroll t tok parent? => exact .enroll _ _ _ _
  | withdraw hw => exact .withdraw hw
  | beginShutdown hw => exact .beginShutdown hw
  | shutdown _ hw => exact (Grows.beginShutdown hw).trans (.releaseKey _ _ _)
  | tearDown _ _ => exact (Grows.mark _ _).trans (.tearDown _ _ _ _)
  | endShutdown _ _ _ _ =>
    exact ((Grows.mark _ _).trans (.tearDown _ _ _ _)).trans (.releaseKey _ _ _)
  | borrow hw => exact .of_local (borrow_ok hw).frame
  | endUses _ he => exact he.grows

/-- A process that is being shut down is past its life. -/
theorem phase_of_beginShutdown {w w' : World} {t : ThreadId} {tok : Token} {ids : List InstanceId}
    (hw : w.beginShutdown t tok = .ok (ids, w')) :
    ∀ p, w'.processes.get? tok = some p → p.phase = .shutDown := by
  obtain ⟨p, hp, -, rfl⟩ := beginShutdown_ok hw
  intro p' hp'
  rw [get?_modifyProcess, if_pos rfl, (live_ok.1 hp).1] at hp'
  obtain rfl := Option.some.inj hp'
  rfl

/-- What a shutdown has to end was made before and belongs to the process. -/
theorem owner_of_beginShutdown {w w' : World} {t : ThreadId} {tok : Token} {ids : List InstanceId}
    {out : List InstanceId} (h : w.RegistrySound out) (hw : w.beginShutdown t tok = .ok (ids, w')) :
    ∀ id ∈ ids, id.number < w'.nextInstance ∧
      ∀ i, w'.instances.get? id = some i → i.owner = tok := by
  obtain ⟨p, hp, rfl, rfl⟩ := beginShutdown_ok hw
  intro id hid
  obtain ⟨-, i, hi, howner, -⟩ := h.member tok p id (live_ok.1 hp).1 (List.mem_reverse.1 hid)
  refine ⟨(h.instanceDrawn id i hi).1, fun j hj => ?_⟩
  change w.instances.get? id = some j at hj
  rw [hi] at hj
  exact Option.some.inj hj ▸ howner

/-- A move keeps the invariant. -/
theorem Move.sound (h : Move m v v') (hs : v.Sound) : v'.Sound := by
  have hgrows := h.grows
  have howners := hs.owners_of_grows hgrows
  have hclosing := hs.closing_of_grows hgrows
  cases h with
  | calm hc => exact hs.calm hc
  | start c hc => exact hs.of_grows ((hs.world.start c).calm hc) hgrows
  | endThread _ => exact hs.of_grows (hs.world.withoutThread _) hgrows
  | bind _ => exact hs.of_grows (hs.world.bind _ _ _) hgrows
  | release _ hr => exact hs.of_grows (hs.world.release hr) hgrows
  | enroll t tok parent? => exact hs.of_grows (hs.world.enroll _ _ _) hgrows
  | withdraw hw =>
    refine ⟨hs.world.withdraw hw, ?_, hclosing⟩
    intro c hmem
    rcases List.mem_cons.1 hmem with rfl | hmem
    · obtain ⟨p, -, ⟨i, hi, howner⟩, -, rfl⟩ := withdraw_ok hw
      refine ⟨(hs.world.registry.instanceDrawn _ i hi).1, fun j hj => ?_⟩
      rw [instances_modifyProcess, hi] at hj
      exact Option.some.inj hj ▸ howner
    · exact howners c hmem
  | @beginShutdown t tok ids w hw =>
    have hcondemned : (ids.map (tok, ·) ++ v.charges).map (·.2) = ids ++ v.condemned := by
      rw [List.map_append, List.map_map]
      exact congrArg (· ++ v.condemned) (List.map_id ids)
    refine ⟨?_, ?_, ?_⟩
    · show w.Sound ((ids.map (tok, ·) ++ v.charges).map (·.2)) v.uses
      rw [hcondemned]
      exact hs.world.beginShutdown hw
    · -- what was drained belongs to the process
      intro c hmem
      rcases List.mem_append.1 hmem with hmem | hmem
      · obtain ⟨id, hid, rfl⟩ := List.mem_map.1 hmem
        exact owner_of_beginShutdown hs.world.registry hw id hid
      · exact howners c hmem
    · intro tok' hmem
      rcases List.mem_cons.1 hmem with rfl | hmem
      · obtain ⟨p, hp, -, rfl⟩ := beginShutdown_ok hw
        exact ⟨hs.world.registry.tokenDrawn _ p (live_ok.1 hp).1, phase_of_beginShutdown hw⟩
      · exact hclosing tok' hmem
  | shutdown _ hw =>
    exact hs.of_grows ((hs.world.beginShutdown hw).releaseKey _ (phase_of_beginShutdown hw)) hgrows
  | @tearDown t tok id _ charges hcharges =>
    obtain ⟨w, _, uses, closing⟩ := v
    dsimp only at hcharges
    subst hcharges
    exact ⟨hs.world.tearDown t tok, fun c hmem => howners c (List.mem_cons_of_mem _ hmem), hclosing⟩
  | @endShutdown t tok id _ _ charges hcharges closing hclose =>
    obtain ⟨w, _, uses, _⟩ := v
    dsimp only at hcharges hclose
    subst hcharges hclose
    -- the process was shut down when the operation began, and is so still
    have htear := hs.closing_of_grows ((Grows.mark w id).trans (.tearDown w t tok id))
    refine ⟨(hs.world.tearDown t tok).releaseKey t (htear tok List.mem_cons_self).2, ?_, ?_⟩
    · exact fun c hmem => howners c (List.mem_cons_of_mem _ hmem)
    · exact fun tok' hmem => hclosing tok' (List.mem_cons_of_mem _ hmem)
  | borrow hw => exact ⟨hs.world.borrow hw, howners, hclosing⟩
  | @endUses ended uses huses w' he =>
    obtain ⟨w, charges, _, closing⟩ := v
    dsimp only at huses
    subst huses
    exact ⟨he.sound hs.world, howners, hclosing⟩

/-! ## Steps and runs -/

/-- What holds of a machine at every point of a run. -/
def Sound (m : Machine) : Prop := m.view.Sound

/-- The world of a sound machine is sound. -/
theorem Sound.world (h : m.Sound) : m.session.world.Sound m.condemned m.uses := by
  rw [← map_charges]
  exact View.Sound.world h

/-- The registries of a sound machine are sound. -/
theorem Sound.registry (h : m.Sound) : m.session.world.RegistrySound m.condemned := h.world.registry

/-- The bindings of a sound machine are sound. -/
theorem Sound.bindings (h : m.Sound) : m.session.world.BindingsSound m.uses := h.world.bindings

/-- The step up to its sweep. -/
theorem sound_act (h : m.Sound) (hok : m.orderly = true) :
    m.act.Sound ∧ Grows m.session.world m.act.session.world := by
  obtain ⟨w, hc, hmove⟩ := act_move hok
  exact ⟨hmove.sound (h.calm hc), (Grows.calm hc).trans hmove.grows⟩

theorem sound_sweep (h : m.Sound) (t : ThreadId) :
    (m.sweep t).Sound ∧ Swept m.heldIds m.session.world (m.sweep t).session.world := by
  obtain ⟨hsound, hswept⟩ := sweep_spec h.world m.condemned_subset_heldIds t m.heldTokens
  refine ⟨View.Sound.of_grows h ?_ hswept.grows, hswept⟩
  show (m.session.sweep t m.heldTokens m.heldIds).world.Sound (m.charges.map (·.2)) m.uses
  rw [map_charges]
  exact hsound

/-- An orderly step keeps the invariant, and brings nothing back. -/
theorem sound_step (h : m.Sound) (hok : m.orderly = true) :
    m.step.Sound ∧ Grows m.session.world m.step.session.world := by
  obtain ⟨hact, hgrows⟩ := sound_act h hok
  obtain ⟨hsweep, hswept⟩ := sound_sweep hact m.actor
  exact ⟨hsweep, hgrows.trans hswept.grows⟩

@[simp] theorem view_redirect (m : Machine) (steps : List Step) : (m.redirect steps).view = m.view := by
  obtain ⟨session, stack, script, reports⟩ := m
  unfold redirect
  cases stack with
  | nil => rfl
  | cons f below => cases f <;> rfl

/-- New steps that are put in leave the world as it is. -/
theorem world_redirect (m : Machine) (steps : List Step) :
    (m.redirect steps).session.world = m.session.world := congrArg View.world (view_redirect m steps)

/-- Runs keep the invariant, and the world grows in them. -/
theorem sound_of_run (h : m.Sound) (hrun : Run orderly m m') :
    m'.Sound ∧ Grows m.session.world m'.session.world := by
  induction hrun with
  | refl => exact ⟨h, .refl _⟩
  | step _ hok ih =>
    obtain ⟨hsound, hgrows⟩ := sound_step ih.1 hok
    exact ⟨hsound, ih.2.trans hgrows⟩
  | redirect _ steps ih =>
    rw [world_redirect, Sound, view_redirect]
    exact ih

/-- The invariant holds wherever a program comes to by orderly steps. -/
theorem sound_of_reachable (h : Reachable orderly m) : m.Sound := by
  obtain ⟨files, environment, fieldCount, script, hrun⟩ := h
  have hstart : (start files environment fieldCount script).Sound :=
    ⟨.empty, fun _ hmem => absurd hmem List.not_mem_nil, fun _ hmem => absurd hmem List.not_mem_nil⟩
  exact (sound_of_run hstart hrun).1

end Machine

end TieredState
