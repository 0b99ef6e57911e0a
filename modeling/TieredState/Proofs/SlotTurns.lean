import TieredState.Proofs.Slots

/-!
# What a step does to a slot

Of all the steps that a machine can take, only a bind and a release of the thread under the process put
something into its slot. `SlotTurn` says what any step makes of a slot.

* `turn_slots` — every step that does not end the thread makes such a turn of its slots.
-/

namespace TieredState

/-- The call binds the thread or releases it. -/
def ProcessCall.rebinds : ProcessCall → Bool
  | bind _ _ | release => true
  | _ => false

/-- What a thread keeps changes, but for its slots. -/
theorem World.slots_setThread_of_eq {w : World} {t : ThreadId} {th : Thread}
    (h : th.slots = (w.thread t).slots) (t' : ThreadId) :
    ((w.setThread t th).thread t').slots = (w.thread t').slots := by
  rw [thread_setThread]
  split
  · next heq => rw [heq, h]
  · rfl

namespace Session

open World Thread

variable {s s' : Session} {ctx : Context} {t : ThreadId}

/-! ## Closures and hooks -/

theorem slots_undo (s : Session) (b : Body) (t : ThreadId) :
    ((s.undo b).world.thread t).slots = (s.world.thread t).slots := by
  unfold undo
  split
  · exact slots_setThread_of_eq (by rfl) t
  · exact slots_setThread_of_eq (by rfl) t
  · rfl
  · rfl

/-- Unwinding leaves slots as they are. -/
theorem slots_unwind (s : Session) (stack : List Frame) (t : ThreadId) :
    ((Machine.unwind s stack).1.world.thread t).slots = (s.world.thread t).slots :=
  Machine.unwind_induction (P := fun s' _ => (s'.world.thread t).slots = (s.world.thread t).slots)
    (fun s' b _ h => (slots_undo s' b t).trans h) (fun _ _ _ _ h => h) rfl

/-- To open a closure leaves slots as they are. -/
theorem slots_entered {steps : List Step} {b : Body} (h : s.Entered ctx steps b s') (t : ThreadId) :
    (s'.world.thread t).slots = (s.world.thread t).slots := by
  cases h with
  | lock focus tokens ids htake =>
    obtain ⟨held, -, rfl⟩ := take_ok htake
    exact slots_setThread_of_eq (by rfl) t
  | storage tokens hborrow =>
    obtain ⟨st, -, -, -, rfl⟩ := borrowed_of_borrow hborrow
    exact slots_setThread_of_eq (by rfl) t
  | attempt => rfl

/-- To register a hook leaves slots as they are. -/
theorem slots_registerHook (s : Session) (ctx : Context) (r : HookRequest) (steps : List Step)
    (t : ThreadId) :
    ((s.registerHook ctx r steps).2.world.thread t).slots = (s.world.thread t).slots := by
  rcases registerHook_cases s ctx r steps with heq | ⟨tok, p, -, hworld, -⟩
  · rw [heq]
  · rw [hworld]
    rfl

end Session

namespace Machine

open World Thread Session

variable {m : Machine} {t : ThreadId} {tok : Token}

/-! ## Steps -/

/-- The next step binds the thread to an instance of a process or releases it. -/
def rebinds (m : Machine) (t : ThreadId) (tok : Token) : Bool :=
  match m.nextCall? with
  | some (ctx, .process p c) =>
    c.rebinds && decide (ctx.thread = t) && decide (m.session.processes.get? p = some tok)
  | _ => false

/-- A call to a process rebinds the thread that makes it, if it is a call that binds or releases. -/
theorem rebinds_of_nextCall? {ctx : Context} {p : Name} {c : ProcessCall} {tok' : Token}
    (hcall : m.nextCall? = some (ctx, .process p c)) (hproc : m.session.process p = .ok tok')
    (t : ThreadId) (tok : Token) : m.rebinds t tok =
      (c.rebinds && decide (ctx.thread = t) && decide (tok' = tok)) := by
  have hget : m.session.processes.get? p = some tok' := by
    unfold process at hproc
    split at hproc
    · next hget => rw [hget, Except.ok.inj hproc]
    · cases hproc
  unfold rebinds
  rw [hcall]
  dsimp only
  rw [hget]
  simp

/-- A dispatch rebinds no thread. -/
theorem rebinds_of_dispatch {d : Dispatch} {job : Bool} {below : List Frame}
    (hstack : m.stack = .dispatch d job :: below) : m.rebinds t tok = false := by
  unfold rebinds
  rw [nextCall?_of_none (next?_of_dispatch hstack)]

/-- What a step leaves of a slot. -/
def SlotTurn (m : Machine) (w : World) (t : ThreadId) (tok : Token) : Prop :=
  (w.thread t).slots.get? tok = (m.session.world.thread t).slots.get? tok ∨
  m.rebinds t tok = false ∧ Leaves w (m.session.world.thread t) (w.thread t) tok ∨
  m.rebinds t tok = true ∧ Recalls m.session.world w (m.session.world.thread t) (w.thread t) tok
    ((m.session.world.thread t).lost? (w.thread t) tok)

/-- A step that leaves the slots as they are does not turn them. -/
theorem SlotTurn.of_slots {w : World} (ctx : Context)
    (h : (w.thread t).slots = ((m.opening ctx).world.thread t).slots) : m.SlotTurn w t tok := by
  refine .inl ?_
  rw [h, thread_opening]

variable {ctx : Context} {p : Name} {tok' : Token}

/-- A bind of the thread under the process puts aside what it ends; other slots lose at most what is
void. -/
theorem slotTurn_bind {i : Name} {as? : Option Name}
    (hcall : m.nextCall? = some (ctx, .process p (.bind i as?)))
    (hproc : m.session.process p = .ok tok') (id : InstanceId) :
    m.SlotTurn ((m.opening ctx).world.bind ctx.thread tok' id).2 t tok := by
  have hrebinds := rebinds_of_nextCall? hcall hproc t tok
  rcases bind_cases (m.opening ctx).world ctx.thread tok' id with
    ⟨e, hrefused⟩ | ⟨⟨q, hq⟩, hlive, hbind⟩
  · rw [hrefused]
    exact .of_slots ctx rfl
  · rw [hbind]
    by_cases hthread : t = ctx.thread
    · subst hthread
      by_cases htok : tok = tok'
      · subst htok
        refine .inr (.inr ⟨hrebinds.trans (by simp [ProcessCall.rebinds]), ?_⟩)
        have hsome : ((m.opening ctx).world.processes.get? tok).isSome = true := by
          rw [(live_ok.1 hq).1]
          rfl
        have hrecalls := recalls_bindThread (t := ctx.thread) hsome hlive
        rw [thread_opening] at hrecalls
        -- the world differs from that of `m` in its threads only
        exact ⟨hrecalls.bindings, hrecalls.retired, hrecalls.kept⟩
      · refine .inr (.inl ⟨hrebinds.trans (by simp [Ne.symm htok]), ?_⟩)
        have hleaves : Leaves _ ((m.opening ctx).world.thread ctx.thread)
            (((m.opening ctx).world.bindThread ctx.thread tok' id).2.thread ctx.thread) tok :=
          leaves_bindThread_ne htok ctx.thread
        rw [thread_opening] at hleaves
        exact hleaves
    · exact .of_slots ctx (by rw [(bindThread_spec _ _ _ _).frame.others t hthread])

/-- A release of the thread under the process puts aside what it ends. -/
theorem slotTurn_release {id? : Option InstanceId} {w : World}
    (hcall : m.nextCall? = some (ctx, .process p .release)) (hproc : m.session.process p = .ok tok')
    (hrelease : (m.opening ctx).world.release ctx.thread tok' = .ok (id?, w)) :
    m.SlotTurn w t tok := by
  have hrebinds := rebinds_of_nextCall? hcall hproc t tok
  obtain ⟨q, -, hunbind⟩ := bind_eq_ok.1 hrelease
  by_cases hthread : t = ctx.thread
  · subst hthread
    by_cases htok : tok = tok'
    · subst htok
      refine .inr (.inr ⟨hrebinds.trans (by simp [ProcessCall.rebinds]), ?_⟩)
      have hrecalls := recalls_unbindThread hunbind
      rw [thread_opening] at hrecalls
      exact ⟨hrecalls.bindings, hrecalls.retired, hrecalls.kept⟩
    · rcases unbindThread_cases hunbind with ⟨-, rfl⟩ | ⟨b, -, -, rfl⟩
      · exact .of_slots ctx rfl
      · refine .inl ?_
        rw [thread_setThread_self, slots_unbound_ne htok, thread_opening]
  · exact .of_slots ctx (by rw [(unbindThread_ok hunbind).frame.others t hthread])

/-- A call that is done at once. -/
theorem slotTurn_served {c : Call} {o : Outcome} {s : Session} (hcall : m.nextCall? = some (ctx, c))
    (h : (m.opening ctx).Served ctx c o s) (ht : m.ends t = false) : m.SlotTurn s.world t tok := by
  cases touches_served h with
  | steady hsteady => exact .of_slots ctx (by rw [hsteady.threads])
  | vars f hfocus =>
    exact .of_slots ctx (slots_setThread_of_eq (by rfl) t)
  | @endThread name _ hsteady =>
    refine .of_slots ctx ?_
    rw [hsteady.threads, world_withWorld, thread_withoutThread, if_neg (ne_of_endThread hcall ht)]
  | @bind p i as? tok' id s' hproc hkeep hworld hsteady =>
    rw [hworld]
    exact slotTurn_bind hcall hproc id
  | release hproc hrelease => exact slotTurn_release hcall hproc hrelease
  | @shutdown p tok' w hproc hbegin =>
    have hrebinds := rebinds_of_nextCall? hcall hproc t tok
    obtain ⟨q, -, -, rfl⟩ := beginShutdown_ok hbegin
    have hleaves := leaves_releaseKey ((m.opening ctx).world.modifyProcess tok' (drained q.registry))
      ctx.thread tok' t tok
    rw [thread_modifyProcess, thread_opening] at hleaves
    exact .inr (.inl ⟨hrebinds, hleaves⟩)

/-- What is torn down when hooks have run. -/
theorem leaves_finishes {s : Session} {d : Dispatch} {p : Progress} (h : s.Finishes d p)
    (t : ThreadId) (tok : Token) :
    Leaves p.session.world (s.world.thread t) (p.session.world.thread t) tok := by
  have htear := leaves_tearDown s.world d.thread d.process d.target t tok
  cases h with
  | create htask =>
    refine .of_slot ?_
    show ((s.keepInstance _ d.target).world.thread t).slots.get? tok = _
    rw [world_keepInstance]
  | destroy htask | next htask => exact htear
  | shutdown htask =>
    refine htear.trans (leaves_releaseKey _ _ _ t tok) (fun hrel => ?_) fun _ hlive => hlive
    have hreleased := isReleased_releaseKey (s.world.tearDown d.thread d.process d.target) d.thread
      d.process tok
    exact (Bool.or_eq_false_iff.1 (hreleased.symm.trans hrel)).2

/-- A step of any kind leaves a slot alone, takes from it what is of no use, or, if it binds or releases
the thread, puts into it the variables of the binding that it ends. -/
theorem turn_slots {sc : Scene} (h : Turn m sc) (ht : m.ends t = false) (tok : Token) :
    m.SlotTurn sc.session.world t tok := by
  -- only a call that is served and the end of an operation reach into the slots
  cases h with
  | idle => exact .inl rfl
  | @served ctx c o s hcall hdone hserved =>
    show m.SlotTurn s.world t tok
    exact slotTurn_served hcall hserved ht
  | @begins ctx p c tok' d s job hcall hproc hrunning hbegins =>
    exact .of_slots ctx (congrArg Thread.slots ((Steady.begins hbegins).threads t))
  | @refused ctx _ hnext => exact .of_slots ctx rfl
  | @opens ctx _ _ _ _ _ job hnext hent =>
    exact .of_slots ctx (slots_entered (entered_of_enter hent) t)
  | @registers ctx _ _ _ hnext => exact .of_slots ctx (slots_registerHook _ _ _ _ t)
  | @fails ctx hnext => exact .of_slots ctx (slots_unwind _ _ t)
  | @closes b below hstack =>
    refine .inl ?_
    show ((m.session.undo b).world.thread t).slots.get? tok = _
    rw [slots_undo]
  | skips hstack hpending hnone => exact .inl rfl
  | calls hstack hpending hcallback => exact .inl rfl
  | finishes hstack hfin hdone =>
    exact .inr (.inl ⟨rebinds_of_dispatch hstack, leaves_finishes (finishes_of_finish hdone) t tok⟩)
  | goesOn hstack hfin hrunning =>
    exact .inr (.inl ⟨rebinds_of_dispatch hstack, leaves_finishes (finishes_of_finish hrunning) t tok⟩)

end Machine

end TieredState
