import TieredState.Proofs.Ages
import TieredState.Proofs.Alterations
import TieredState.Proofs.Locks
import TieredState.Proofs.Sweep
import TieredState.Proofs.Trace

/-!
# What the identity of a hook stands for

A process draws the identities of its hooks from a counter of its own. So what an identity stands for
can be read off the past of the run, process by process: a registration of the process has given it
out, and no removal has taken it back since. The identity does not tell which process has given it
out, and another one may have given out the same.

* `outstanding` — the process has given out the identity, and has not removed the hook since.
* `rehooks_act` — what a step of any kind does to the hooks of a process.
* `hook_removed` — a removal is answered by whether the identity is outstanding, and takes away the one
  hook that has it.
* `removed_by_another` — the hook is removed also when the identity at hand is that of a hook of
  another process.
-/

namespace TieredState

namespace Hooks

variable {h : Hooks} {id : HookId}

/-- The identities of the hooks. -/
def ids (h : Hooks) : List HookId := (h.created ++ h.destroyed).map (·.1)

/-- An identity is that of a hook if it stands in one of the lists. -/
theorem mem_ids : id ∈ h.ids ↔ ∃ e c, (id, c) ∈ h.list e := by
  unfold ids
  constructor
  · intro hid
    obtain ⟨⟨id', c⟩, hmem, rfl⟩ := List.mem_map.1 hid
    rcases List.mem_append.1 hmem with hcreated | hdestroyed
    · exact ⟨.created, c, hcreated⟩
    · exact ⟨.destroyed, c, hdestroyed⟩
  · rintro ⟨e, c, hmem⟩
    refine List.mem_map.2 ⟨(id, c), List.mem_append.2 ?_, rfl⟩
    cases e with
    | created => exact .inl hmem
    | destroyed => exact .inr hmem

/-- A registration adds the identity that it gives out. -/
theorem ids_register (h : Hooks) (e : HookEvent) (c : CallbackId) :
    (h.register e c).2.ids.Perm (⟨h.nextId⟩ :: h.ids) := by
  cases e with
  | created =>
    unfold ids register
    simp only [List.map_append, List.map_cons, List.append_assoc, List.singleton_append]
    exact List.perm_middle
  | destroyed =>
    unfold ids register
    simp only [List.map_append, List.map_cons, List.map_nil, ← List.append_assoc]
    exact List.perm_append_singleton _ _

/-- A removal leaves all identities but one. -/
theorem ids_remove (h : Hooks) (id : HookId) :
    (h.remove id).2.ids = h.ids.filter (· ≠ id) := by
  unfold ids remove
  rw [List.filter_map, List.filter_append]
  rfl

/-- A hook that is not there leaves the hooks as they are when it is removed. -/
theorem remove_of_not_mem (hid : id ∉ h.ids) : h.remove id = (false, h) := by
  have hlist : ∀ e, (h.list e).filter (·.1 ≠ id) = h.list e := by
    refine fun e => List.filter_eq_self.2 fun entry hentry => decide_eq_true ?_
    rintro rfl
    exact hid (mem_ids.2 ⟨e, entry.2, hentry⟩)
  have hcreated : h.created.filter (·.1 ≠ id) = h.created := hlist .created
  have hdestroyed : h.destroyed.filter (·.1 ≠ id) = h.destroyed := hlist .destroyed
  unfold remove
  rw [hcreated, hdestroyed]
  simp

/-- An entry that stands alone with its identity is taken out of a list by that. -/
theorem filter_of_nodup {l : List (HookId × CallbackId)} {c : CallbackId}
    (hnodup : (l.map (·.1)).Nodup) (hmem : (id, c) ∈ l) :
    ∃ before after, l = before ++ (id, c) :: after ∧ l.filter (·.1 ≠ id) = before ++ after := by
  obtain ⟨before, after, rfl⟩ := List.append_of_mem hmem
  refine ⟨before, after, rfl, ?_⟩
  rw [List.map_append, List.map_cons, List.nodup_middle, List.nodup_cons, List.mem_append, not_or] at hnodup
  have hother : ∀ l : List (HookId × CallbackId), id ∉ l.map (·.1) → l.filter (·.1 ≠ id) = l := by
    refine fun l hnot => List.filter_eq_self.2 fun entry hentry => decide_eq_true ?_
    rintro rfl
    exact hnot (List.mem_map.2 ⟨entry, hentry, rfl⟩)
  rw [List.filter_append, List.filter_cons_of_neg (by simp), hother _ hnodup.1.1, hother _ hnodup.1.2]

/-- A hook that is there is removed, and no other one. -/
structure Loses (h h' : Hooks) (id : HookId) : Prop where
  nextId : h'.nextId = h.nextId
  list : ∃ e before c after, h.list e = before ++ (id, c) :: after ∧ h'.list e = before ++ after ∧
    ∀ e', e' ≠ e → h'.list e' = h.list e'

/-- A hook that is there is removed, and its identity with it. -/
theorem loses_of_mem (hnodup : h.ids.Nodup) (hid : id ∈ h.ids) :
    (h.remove id).1 = true ∧ h.Loses (h.remove id).2 id := by
  obtain ⟨e, c, hmem⟩ := mem_ids.1 hid
  unfold ids at hnodup
  rw [List.map_append, List.nodup_append'] at hnodup
  obtain ⟨hcreated, hdestroyed, hdisjoint⟩ := hnodup
  -- the other list does not have the identity
  have hothers : ∀ e', e' ≠ e → (h.remove id).2.list e' = h.list e' := by
    intro e' hne
    have hnot : ∀ entry ∈ h.list e', entry.1 ≠ id := by
      rintro entry hentry rfl
      have hin : entry.1 ∈ (h.list e').map (·.1) := List.mem_map.2 ⟨entry, hentry, rfl⟩
      have hin' : entry.1 ∈ (h.list e).map (·.1) := List.mem_map.2 ⟨_, hmem, rfl⟩
      cases e <;> cases e' <;> first | exact hne rfl | exact hdisjoint hin hin' | exact hdisjoint hin' hin
    have hfilter : (h.list e').filter (·.1 ≠ id) = h.list e' :=
      List.filter_eq_self.2 fun entry hentry => decide_eq_true (hnot entry hentry)
    cases e' <;> exact hfilter
  have hlist : ((h.list e).map (·.1)).Nodup := by
    cases e with
    | created => exact hcreated
    | destroyed => exact hdestroyed
  obtain ⟨before, after, heq, hfilter⟩ := filter_of_nodup hlist hmem
  have hremoved : (h.remove id).2.list e = before ++ after := by
    cases e <;> exact hfilter
  have hfound : (h.remove id).1 = decide (h.size ≠ (h.remove id).2.size) := rfl
  refine ⟨hfound.trans (decide_eq_true ?_), rfl, e, before, c, after, heq, hremoved, hothers⟩
  -- there are fewer hooks than before
  have hsize : ∀ h : Hooks, h.size = h.created.length + h.destroyed.length := fun _ => rfl
  have hlength := congrArg List.length heq
  have hlength' := congrArg List.length hremoved
  rw [List.length_append, List.length_cons] at hlength
  rw [List.length_append] at hlength'
  rw [hsize, hsize]
  cases e with
  | created =>
    have hother := congrArg List.length (hothers .destroyed nofun)
    dsimp only [list] at hlength hlength' hother
    omega
  | destroyed =>
    have hother := congrArg List.length (hothers .created nofun)
    dsimp only [list] at hlength hlength' hother
    omega

end Hooks

/-- The hooks of a process. -/
def World.hooksOf (w : World) (tok : Token) : Option Hooks := (w.processes.get? tok).map (·.hooks)

namespace Session

open World

variable {s : Session} {ctx : Context}

/-- The identity that the registration of a hook gives out, and the process that does. A registration
that is refused gives out none. -/
def issues? (s : Session) (ctx : Context) (r : HookRequest) : Option (Token × HookId) :=
  match r.process? with
  | some p =>
    (s.process p).toOption.bind fun tok =>
      (s.world.addHook ctx.thread tok r.event ⟨s.nextCallback⟩).toOption.map fun added =>
        (tok, added.1)
  | none =>
    match ctx.focus with
    | .hooks tok true => (s.world.processes.get? tok).map fun p => (tok, ⟨p.hooks.nextId⟩)
    | _ => none

/-- The process has one more hook. -/
def hooked (e : HookEvent) (c : CallbackId) (p : Process) : Process :=
  { p with hooks := (p.hooks.register e c).2 }

/-- A registration gives out the identity that is next, and adds the hook. -/
theorem registerHook_issues (s : Session) (ctx : Context) (r : HookRequest) (steps : List Step) :
    (s.issues? ctx r = none ∧ (s.registerHook ctx r steps).2 = s) ∨
    ∃ tok p, s.world.processes.get? tok = some p ∧
      s.issues? ctx r = some (tok, ⟨p.hooks.nextId⟩) ∧
      (s.registerHook ctx r steps).2.world =
        s.world.modifyProcess tok (hooked r.event ⟨s.nextCallback⟩) := by
  -- the list that grows is that of the process which was looked up
  have hworld : ∀ {tok p}, s.world.processes.get? tok = some p →
      s.world.modifyProcess tok (hooked r.event ⟨s.nextCallback⟩) =
        s.world.modifyProcess tok fun q =>
          { q with hooks := (p.hooks.register r.event ⟨s.nextCallback⟩).2 } := by
    refine fun hp => modifyProcess_congr fun q hq => ?_
    obtain rfl := Option.some.inj (hq.symm.trans hp)
    rfl
  cases hprocess : r.process? with
  | none =>
    unfold registerHook issues?
    rw [hprocess]
    dsimp only [addCallback]
    cases ctx.focus with
    | hooks tok writable =>
      cases writable with
      | false => exact .inl ⟨rfl, rfl⟩
      | true =>
        dsimp only
        cases hp : s.world.processes.get? tok with
        | none => exact .inl ⟨rfl, rfl⟩
        | some p =>
          refine .inr ⟨tok, p, hp, rfl, ?_⟩
          dsimp only
          rw [world_keepHook, hworld hp]
          rfl
    | _ => exact .inl ⟨rfl, rfl⟩
  | some n =>
    unfold registerHook issues?
    rw [hprocess]
    dsimp only [addCallback]
    cases hproc : s.process n with
    | error f => exact .inl ⟨rfl, rfl⟩
    | ok tok =>
      dsimp only [Except.toOption, Option.bind_some]
      cases hadd : s.world.addHook ctx.thread tok r.event ⟨s.nextCallback⟩ with
      | error e => exact .inl ⟨rfl, rfl⟩
      | ok added =>
        obtain ⟨id, w⟩ := added
        obtain ⟨p, hp, rfl, rfl⟩ := addHook_ok hadd
        have hget := (live_ok.1 hp).1
        refine .inr ⟨tok, p, hget, ?_, ?_⟩
        · cases r.event <;> rfl
        · rw [world_keepHook, hworld hget]
          rfl

end Session

namespace Machine

open World Session

variable {allowed : Machine → Bool} {m : Machine} {past : List Machine} {ctx : Context} {tok : Token}
  {id : HookId}

/-! ## Identities in the past of a run -/

/-- The identity that the next step gives out for a hook, and the process that does. -/
def issues? (m : Machine) : Option (Token × HookId) :=
  match m.next? with
  | some (ctx, .register _ r _) => (m.opening ctx).issues? ctx r
  | _ => none

/-- The hook that the next step removes if it is there, by its identity and its process. -/
def unhooks? (m : Machine) : Option (Token × HookId) :=
  m.nextCall?.bind fun call => (m.opening call.1).unhooks? call.1 call.2

/-- The process has given out the identity in the past of a run, and has not removed the hook since. -/
def outstanding (tok : Token) (id : HookId) : List Machine → Bool
  | [] => false
  | m :: past =>
    if m.issues? = some (tok, id) then true
    else if m.unhooks? = some (tok, id) then false
    else outstanding tok id past

/-! ## Steps -/

/-- What a step does to the hooks of a process, apart from dropping the process. -/
inductive Rehooks (m : Machine) (tok : Token) : Option Hooks → Prop
  | keeps (hissues : ∀ id, m.issues? ≠ some (tok, id)) (hunhooks : ∀ id, m.unhooks? ≠ some (tok, id)) :
    Rehooks m tok (m.session.world.hooksOf tok)
  /-- The process is new. -/
  | starts (hnew : tok = ⟨m.session.world.nextToken⟩) (hissues : m.issues? = none)
    (hunhooks : m.unhooks? = none) : Rehooks m tok (some {})
  | registers {h : Hooks} (e : HookEvent) (c : CallbackId) (hh : m.session.world.hooksOf tok = some h)
    (hissues : m.issues? = some (tok, ⟨h.nextId⟩)) (hunhooks : m.unhooks? = none) :
    Rehooks m tok (some (h.register e c).2)
  | removes {h : Hooks} {id : HookId} (hh : m.session.world.hooksOf tok = some h)
    (hissues : m.issues? = none) (hunhooks : m.unhooks? = some (tok, id)) :
    Rehooks m tok (some (h.remove id).2)

/-- Only the process that is changed may have other hooks. -/
theorem hooksOf_modifyProcess (w : World) (tok tok' : Token) (f : Process → Process) :
    (w.modifyProcess tok f).hooksOf tok' =
      if tok' = tok then (w.processes.get? tok').map fun p => (f p).hooks else w.hooksOf tok' := by
  unfold hooksOf
  rw [get?_modifyProcess]
  split
  · rw [Option.map_map]
    rfl
  · rfl

/-- A process that is changed in other respects has the hooks that it had. -/
theorem hooksOf_of_same {w : World} {f : Process → Process} (hf : ∀ p, (f p).hooks = p.hooks)
    (tok tok' : Token) : (w.modifyProcess tok f).hooksOf tok' = w.hooksOf tok' := by
  rw [hooksOf_modifyProcess]
  split
  · unfold hooksOf
    simp only [hf]
  · rfl

/-- Where no process changes, hooks stay. -/
theorem hooksOf_of_processes {w w' : World} (h : w'.processes = w.processes) (tok : Token) :
    w'.hooksOf tok = w.hooksOf tok := by
  unfold hooksOf
  rw [h]

theorem hooksOf_start (w : World) (c : Config) (tok : Token) :
    (w.start c).2.hooksOf tok = if tok = ⟨w.nextToken⟩ then some {} else w.hooksOf tok := by
  unfold hooksOf
  rw [get?_start]
  split <;> rfl

theorem hooksOf_releaseKey (w : World) (t : ThreadId) (tok tok' : Token) :
    (w.releaseKey t tok).hooksOf tok' = w.hooksOf tok' :=
  hooksOf_of_same (f := fun p => { p with released := true }) (fun _ => rfl) tok tok'

theorem hooksOf_tearDown (w : World) (t : ThreadId) (tok : Token) (id : InstanceId) (tok' : Token) :
    (w.tearDown t tok id).hooksOf tok' = w.hooksOf tok' :=
  hooksOf_of_processes (processes_tearDown w t tok id) tok'

/-- A process that there is has hooks to be looked at. -/
theorem hooksOf_of_get? {w : World} {p : Process} (hp : w.processes.get? tok = some p) :
    w.hooksOf tok = some p.hooks := by
  unfold hooksOf
  rw [hp]
  rfl

theorem hooksOf_of_beginShutdown {w w' : World} {t : ThreadId} {tok' : Token} {ids : List InstanceId}
    (h : w.beginShutdown t tok' = .ok (ids, w')) : w'.hooksOf tok = w.hooksOf tok := by
  obtain ⟨p, -, -, rfl⟩ := beginShutdown_ok h
  exact hooksOf_of_same (f := drained p.registry) (fun _ => rfl) _ _

theorem hooksOf_install (w : World) (tok tok' : Token) :
    (w.install tok).2.hooksOf tok' = w.hooksOf tok' := by
  refine hooksOf_of_processes ?_ tok'
  unfold install
  split <;> rfl

namespace Rehooks

/-- The process has the hooks that it had. -/
theorem of_eq {w : World} (h : w.hooksOf tok = m.session.world.hooksOf tok) (hissues : m.issues? = none)
    (hunhooks : m.unhooks? = none) : m.Rehooks tok (w.hooksOf tok) := by
  rw [h]
  exact .keeps (fun _ => hissues ▸ (Option.some_ne_none _).symm)
    fun _ => hunhooks ▸ (Option.some_ne_none _).symm

end Rehooks

/-- A call gives out no identity. -/
theorem issues?_of_nextCall? {c : Call} (hcall : m.nextCall? = some (ctx, c)) : m.issues? = none := by
  obtain ⟨on?, hnext⟩ := next?_of_nextCall? hcall
  unfold issues?
  rw [hnext]

/-- Which hook a call removes does not depend on its thread being known. -/
theorem unhooks?_of_nextCall? {c : Call} (hcall : m.nextCall? = some (ctx, c)) :
    m.unhooks? = (m.opening ctx).unhooks? ctx c := by
  unfold unhooks?
  rw [hcall]
  rfl

/-- A step that makes no call removes no hook. -/
theorem unhooks?_of_none (h : m.nextCall? = none) : m.unhooks? = none := by
  unfold unhooks?
  rw [h]
  rfl

theorem rehooks_alters {c : Call} {w : World} (hcall : m.nextCall? = some (ctx, c))
    (h : (m.opening ctx).Alters ctx c w) (tok : Token) : m.Rehooks tok (w.hooksOf tok) := by
  have hissues := issues?_of_nextCall? hcall
  have hunhooks := unhooks?_of_nextCall? hcall
  -- a process that is started has the hooks of no other, and counts from zero
  have hstart : ∀ config, (m.opening ctx).unhooks? ctx c = none →
      m.Rehooks tok (((m.opening ctx).world.start config).2.hooksOf tok) := by
    intro config hnone
    by_cases hnew : tok = ⟨(m.opening ctx).world.nextToken⟩
    · rw [hooksOf_start, if_pos hnew]
      exact .starts hnew hissues (hunhooks.trans hnone)
    · refine .of_eq ?_ hissues (hunhooks.trans hnone)
      rw [hooksOf_start, if_neg hnew]
      rfl
  cases h with
  | same hkeeps => exact .of_eq rfl hissues (hunhooks.trans hkeeps)
  | edits f hoperand hkeeps hhooks =>
    exact .of_eq (hooksOf_of_same hhooks _ tok) hissues (hunhooks.trans hkeeps)
  | @unhooks c tok' id hoperand hunhooked =>
    have hgone : m.unhooks? = some (tok', id) := hunhooks.trans hunhooked
    obtain ⟨-, p, hp⟩ := operand_of_unhooks? hunhooked
    rw [hooksOf_modifyProcess]
    split
    · next heq =>
      subst heq
      rw [hp]
      exact .removes (hooksOf_of_get? hp) hissues hgone
    · next hne =>
      refine .keeps (fun _ => hissues ▸ (Option.some_ne_none _).symm) fun id' heq => hne ?_
      exact congrArg Prod.fst (Option.some.inj (heq.symm.trans hgone))
  | vars v hfocus =>
    exact .of_eq rfl hissues (hunhooks.trans (unhooks?_of_focus (by simp [hfocus])))
  | threadVars f hfocus =>
    exact .of_eq rfl hissues (hunhooks.trans (unhooks?_of_focus (by simp [hfocus])))
  | ends => exact .of_eq rfl hissues hunhooks
  | starts config => exact hstart config rfl
  | startsInstalled config _ =>
    rw [hooksOf_install]
    exact hstart config rfl
  | installs _ => exact .of_eq (hooksOf_install _ _ tok) hissues hunhooks
  | binds _ _ => exact .of_eq (hooksOf_of_processes (local_bind _ _ _ _).processes tok) hissues hunhooks
  | releases _ hrelease =>
    exact .of_eq (hooksOf_of_processes (local_release hrelease).processes tok) hissues hunhooks
  | @draws p c hc =>
    refine .of_eq rfl hissues (hunhooks.trans ?_)
    cases c with
    | removeHook n => cases hc
    | _ => rfl
  | shuts _ hbegin =>
    refine .of_eq ?_ hissues hunhooks
    rw [hooksOf_releaseKey, hooksOf_of_beginShutdown hbegin]
    rfl

theorem rehooks_begins {s s' : Session} {t : ThreadId} {tok' : Token} {d : Dispatch}
    (h : s.Begins t tok' d s') (tok : Token) : s'.world.hooksOf tok = s.world.hooksOf tok := by
  cases h with
  | create as? henroll =>
    obtain ⟨-, rfl, -⟩ := mayTake_of_enroll henroll
    exact hooksOf_of_same (w := s.world.draw) (f := (·.register _)) (fun _ => rfl) _ _
  | destroy hwithdraw =>
    obtain ⟨p, -, -, -, rfl⟩ := withdraw_ok hwithdraw
    exact hooksOf_of_same (f := withdrawn _) (fun _ => rfl) _ _
  | shutdown hbegin => exact hooksOf_of_beginShutdown hbegin

theorem rehooks_finishes {s : Session} {d : Dispatch} {p : Progress} (h : s.Finishes d p) (tok : Token) :
    p.session.world.hooksOf tok = s.world.hooksOf tok := by
  cases h with
  | @create as? htask =>
    show (s.keepInstance as? d.target).world.hooksOf tok = _
    rw [world_keepInstance]
  | destroy htask | next htask => exact hooksOf_tearDown _ _ _ _ _
  | shutdown htask => exact (hooksOf_releaseKey _ _ _ _).trans (hooksOf_tearDown _ _ _ _ _)

/-- A registration gives out an identity, or is refused. -/
theorem rehooks_registers {on? : Option String} {r : HookRequest} {steps : List Step}
    (hnext : m.next? = some (ctx, .register on? r steps)) (tok : Token) :
    m.Rehooks tok (((m.opening ctx).registerHook ctx r steps).2.world.hooksOf tok) := by
  have hunhooks : m.unhooks? = none := unhooks?_of_none (nextCall?_of_next? hnext nofun)
  have hissues : m.issues? = (m.opening ctx).issues? ctx r := by
    unfold issues?
    rw [hnext]
  rcases registerHook_issues (m.opening ctx) ctx r steps with ⟨hnone, heq⟩ | ⟨tok', p, hp, hid, hworld⟩
  · rw [heq]
    exact .of_eq rfl (hissues.trans hnone) hunhooks
  · rw [hworld, hooksOf_modifyProcess]
    split
    · next heq =>
      subst heq
      rw [hp]
      exact .registers r.event _ (hooksOf_of_get? hp) (hissues.trans hid) hunhooks
    · next hne =>
      refine .keeps (fun id heq => hne ?_) fun _ => hunhooks ▸ (Option.some_ne_none _).symm
      rw [hissues, hid] at heq
      exact (congrArg Prod.fst (Option.some.inj heq)).symm

/-- A step that registers nothing removes a hook, or leaves the hooks alone. -/
theorem rehooks_turn {sc : Scene} (h : Turn m sc) (hissues : m.issues? = none)
    (hregister : ∀ ctx on? r steps, m.next? ≠ some (ctx, .register on? r steps)) (tok : Token) :
    m.Rehooks tok (sc.session.world.hooksOf tok) := by
  -- a step of a dispatch is no call, so it removes no hook
  have hdispatch : ∀ {d job below}, m.stack = .dispatch d job :: below → m.unhooks? = none :=
    fun hstack => unhooks?_of_none (nextCall?_of_none (next?_of_dispatch hstack))
  cases h with
  | idle _ hnext => exact .of_eq rfl hissues (unhooks?_of_none (nextCall?_of_none hnext))
  | served hcall hdone hserved => exact rehooks_alters hcall (alters_served hdone hserved) tok
  | begins job hcall hproc hrunning hbegins =>
    refine .of_eq (rehooks_begins hbegins tok) hissues ((unhooks?_of_nextCall? hcall).trans ?_)
    refine Option.eq_none_iff_forall_ne_some.2 fun r hr => ?_
    obtain ⟨found, s', hanswered⟩ := call_of_unhooks? hr
    cases hrunning.symm.trans hanswered
  | @refused ctx step hnext hcall =>
    refine .of_eq rfl hissues ?_
    cases step with
    | call on? c =>
      have hcall' := nextCall?_of_call hnext
      obtain rfl := hcall c hcall'
      exact unhooks?_of_nextCall? hcall'
    | _ => exact unhooks?_of_none (nextCall?_of_next? hnext nofun)
  | opens job hnext henter =>
    refine .of_eq ?_ hissues (unhooks?_of_none (nextCall?_of_next? hnext nofun))
    exact hooksOf_of_processes (tables_entered (entered_of_enter henter)).1 tok
  | registers hnext => exact absurd hnext (hregister _ _ _ _)
  | @fails ctx hnext =>
    exact .of_eq (hooksOf_of_processes (tables_unwind _ _).1 tok) hissues
      (unhooks?_of_nextCall? (nextCall?_of_call hnext))
  | @closes b below hstack hpending =>
    exact .of_eq (hooksOf_of_processes (tables_undo _ b).1 tok) hissues
      (unhooks?_of_none (nextCall?_of_none (next?_of_done hstack hpending)))
  | skips hstack | calls hstack => exact .of_eq rfl hissues (hdispatch hstack)
  | finishes hstack _ hdone =>
    exact .of_eq (rehooks_finishes (finishes_of_finish hdone) tok) hissues (hdispatch hstack)
  | goesOn hstack _ hrunning =>
    exact .of_eq (rehooks_finishes (finishes_of_finish hrunning) tok) hissues (hdispatch hstack)

/-- What a step of any kind does to the hooks of a process, before the sweep. -/
theorem rehooks_act (m : Machine) (tok : Token) : m.Rehooks tok (m.act.session.world.hooksOf tok) := by
  by_cases hregister : ∃ ctx on? r steps, m.next? = some (ctx, .register on? r steps)
  · obtain ⟨ctx, on?, r, steps, hnext⟩ := hregister
    have hworld : m.act.session.world = ((m.opening ctx).registerHook ctx r steps).2.world :=
      congrArg (fun sc => sc.session.world) (act_of_register hnext)
    rw [hworld]
    exact rehooks_registers hnext tok
  · have hnot : ∀ ctx on? r steps, m.next? ≠ some (ctx, .register on? r steps) :=
      fun ctx on? r steps hnext => hregister ⟨ctx, on?, r, steps, hnext⟩
    refine rehooks_turn (act_turn m) ?_ hnot tok
    unfold issues?
    split
    · next hnext => exact absurd hnext (hnot _ _ _ _)
    · rfl

/-! ## Runs -/

/-- The hooks of a process are those whose identities are outstanding. -/
structure Tracks (past : List Machine) (tok : Token) (h : Hooks) : Prop where
  ids : ∀ id, id ∈ h.ids ↔ outstanding tok id past = true
  nodup : h.ids.Nodup
  drawn : ∀ id ∈ h.ids, id.number < h.nextId

namespace Tracks

variable {h : Hooks}

/-- A step that gives out no identity of the process, and removes no hook of it, leaves nothing to
keep track of. -/
theorem keeps (ht : Tracks past tok h) (hissues : ∀ id, m.issues? ≠ some (tok, id))
    (hunhooks : ∀ id, m.unhooks? ≠ some (tok, id)) : Tracks (m :: past) tok h where
  ids id := by
    unfold outstanding
    rw [if_neg (hissues id), if_neg (hunhooks id)]
    exact ht.ids id
  nodup := ht.nodup
  drawn := ht.drawn

/-- The identity that is next has not been given out before. -/
theorem registers (ht : Tracks past tok h) (hissues : m.issues? = some (tok, ⟨h.nextId⟩))
    (hunhooks : m.unhooks? = none) (e : HookEvent) (c : CallbackId) :
    Tracks (m :: past) tok (h.register e c).2 := by
  have hperm := h.ids_register e c
  have hnext : (h.register e c).2.nextId = h.nextId + 1 := by cases e <;> rfl
  have hnew : (⟨h.nextId⟩ : HookId) ∉ h.ids := fun hmem => Nat.lt_irrefl _ (ht.drawn _ hmem)
  refine ⟨fun id => ?_, ?_, fun id hid => ?_⟩
  · unfold outstanding
    rw [hperm.mem_iff, List.mem_cons, hissues, hunhooks]
    by_cases heq : id = ⟨h.nextId⟩
    · simp [heq]
    · have hne : (⟨h.nextId⟩ : HookId) ≠ id := Ne.symm heq
      simp [heq, hne, ht.ids]
  · rw [hperm.nodup_iff, List.nodup_cons]
    exact ⟨hnew, ht.nodup⟩
  · rw [hnext]
    rcases List.mem_cons.1 (hperm.mem_iff.1 hid) with rfl | hold
    · exact Nat.lt_succ_self _
    · exact Nat.lt_succ_of_lt (ht.drawn id hold)

/-- A hook that is removed is no longer outstanding. -/
theorem removes (ht : Tracks past tok h) (hissues : m.issues? = none)
    (hunhooks : m.unhooks? = some (tok, id)) : Tracks (m :: past) tok (h.remove id).2 := by
  refine ⟨fun id' => ?_, ?_, fun id' hid' => ?_⟩
  · unfold outstanding
    rw [Hooks.ids_remove, List.mem_filter, decide_eq_true_eq, ht.ids, hissues, hunhooks]
    by_cases heq : id' = id
    · simp [heq]
    · have hne : id ≠ id' := Ne.symm heq
      simp [heq, hne]
  · rw [Hooks.ids_remove]
    exact ht.nodup.filter _
  · rw [Hooks.ids_remove] at hid'
    exact ht.drawn id' (List.mem_of_mem_filter hid')

end Tracks

/-- The hooks of every process are those that are outstanding, and for a process that is yet to be
started nothing is. -/
structure Tracked (past : List Machine) (m : Machine) : Prop where
  hooks : ∀ tok h, m.session.world.hooksOf tok = some h → Tracks past tok h
  undrawn : ∀ tok : Token, m.session.world.nextToken ≤ tok.number → ∀ id, outstanding tok id past = false

/-- An identity is given out by a process that there is. -/
theorem get?_of_issues? (h : m.issues? = some (tok, id)) :
    ∃ p, m.session.world.processes.get? tok = some p := by
  unfold issues? at h
  split at h
  · next ctx on? r steps hnext =>
    rcases registerHook_issues (m.opening ctx) ctx r steps with ⟨hnone, -⟩ | ⟨tok', p, hp, hid, -⟩
    · rw [hnone] at h
      cases h
    · obtain ⟨rfl, -⟩ := Prod.mk.inj (Option.some.inj (hid.symm.trans h))
      exact ⟨p, hp⟩
  · cases h

/-- A step keeps track of hooks. -/
theorem tracked_step (ht : Tracked past m) (hd : m.Dated) : Tracked (m :: past) m.step := by
  obtain ⟨hages, -⟩ := ages_step hd
  constructor
  · intro tok h hh
    -- the sweep drops processes, and changes none
    have hact : m.act.session.world.hooksOf tok = some h := by
      have hsub := (sweep_sub m.act.session m.actor m.act.heldTokens m.act.heldIds).2.1 tok
      obtain ⟨p, hp, rfl⟩ := Option.map_eq_some_iff.1 hh
      exact hooksOf_of_get? (hsub p hp)
    have hrehooks := rehooks_act m tok
    rw [hact] at hrehooks
    generalize hsome : some h = h? at hrehooks
    cases hrehooks with
    | keeps hissues hunhooks => exact (ht.hooks tok h hsome.symm).keeps hissues hunhooks
    | starts hnew hissues hunhooks =>
      obtain rfl := Option.some.inj hsome
      refine ⟨fun id => ?_, List.nodup_nil, nofun⟩
      have hnone := ht.undrawn tok (hnew ▸ Nat.le_refl _) id
      unfold outstanding
      rw [hissues, hunhooks, if_neg nofun, if_neg nofun, hnone]
      exact iff_of_false (fun hmem => nomatch hmem) Bool.false_ne_true
    | registers e c hh' hissues hunhooks =>
      obtain rfl := Option.some.inj hsome
      exact (ht.hooks tok _ hh').registers hissues hunhooks e c
    | removes hh' hissues hunhooks =>
      obtain rfl := Option.some.inj hsome
      exact (ht.hooks tok _ hh').removes hissues hunhooks
  · intro tok hle id
    have hle' : m.session.world.nextToken ≤ tok.number := Nat.le_trans hages.nextToken hle
    have hundrawn : ∀ p, m.session.world.processes.get? tok ≠ some p := by
      intro p hp
      exact absurd (hd.processes tok p hp).1 (Nat.not_lt.2 hle')
    have hissues : m.issues? ≠ some (tok, id) := by
      intro heq
      obtain ⟨p, hp⟩ := get?_of_issues? heq
      exact hundrawn p hp
    unfold outstanding
    rw [if_neg hissues, ht.undrawn tok hle' id, ite_self]

/-- At every point of every run hooks are those that are outstanding. -/
theorem tracked_of_history (hm : History allowed past m) : Tracked past m := by
  obtain ⟨files, environment, fieldCount, script, htrace⟩ := hm
  induction htrace with
  | start => exact ⟨fun _ _ h => (by cases h), fun _ _ _ => rfl⟩
  | step htrace _ ih =>
    exact tracked_step ih (dated_of_reachable ⟨files, environment, fieldCount, script, htrace.run⟩)
  | @redirect past m _ steps ih =>
    have hworld : (m.redirect steps).session.world = m.session.world := world_redirect m steps
    refine ⟨fun tok h hh => ih.hooks tok h ?_, fun tok hle => ih.undrawn tok ?_⟩
    · rw [← hworld]
      exact hh
    · rw [← hworld]
      exact hle

/-! ## Removals -/

/-- A live process looks for the hook that it is asked to remove where its lock can be taken. -/
theorem removeHook_eq {w : World} {t : ThreadId} {q : Process} (hq : w.live tok = .ok q)
    (hfree : ∀ x ∈ w.holds t, x.rank < Lock.hooks.rank) (id : HookId) :
    w.removeHook t tok id = .ok ((q.hooks.remove id).1,
      w.modifyProcess tok fun p => { p with hooks := (q.hooks.remove id).2 }) := by
  unfold removeHook
  rw [hq, show w.mayTake t .hooks = .ok () from mayTake_ok.2 hfree]
  rfl

/-- Let a thread that holds no lock, or only such as rank below that of the hooks, ask a live process
to remove the hook with an identity. The answer is whether the process has given out that identity and
has not removed the hook since. If so, the one hook that has it is removed, and otherwise the hooks
stay as they are. Nothing else of the process changes, nor does any other process. -/
theorem hook_removed (hm : History allowed past m) {p n : Name} {q : Process}
    (hcall : m.nextCall? = some (ctx, .process p (.removeHook n)))
    (hproc : m.session.process p = .ok tok) (hname : m.session.hookNamed n = .ok id)
    (hlive : m.session.world.live tok = .ok q)
    (hfree : ∀ x ∈ m.session.world.holds ctx.thread, x.rank < Lock.hooks.rank) :
    m.step.told? = some (.ok (.flag (outstanding tok id past))) ∧
    (∃ h, m.step.session.world.processes.get? tok = some { q with hooks := h } ∧
      if outstanding tok id past then q.hooks.Loses h id else h = q.hooks) ∧
    ∀ tok', tok' ≠ tok →
      m.step.session.world.processes.get? tok' = m.session.world.processes.get? tok' := by
  have hget := (live_ok.1 hlive).1
  have hget' : (m.opening ctx).world.processes.get? tok = some q := hget
  have htracks := (tracked_of_history hm).hooks tok q.hooks (hooksOf_of_get? hget)
  -- the removal is not refused
  have hholds : (m.opening ctx).world.holds = m.session.world.holds := (Steady.touch _ _).holds
  have hfree' : ∀ x ∈ (m.opening ctx).world.holds ctx.thread, x.rank < Lock.hooks.rank := by
    rw [hholds]
    exact hfree
  have hlive' : (m.opening ctx).world.live tok = .ok q := hlive
  have hremove := removeHook_eq hlive' hfree' id
  have hdone : (m.opening ctx).call ctx (.process p (.removeHook n)) =
      .done (.ok (.flag (q.hooks.remove id).1)) ((m.opening ctx).modifyProcess tok fun p =>
        { p with hooks := (q.hooks.remove id).2 }) := by
    have hproc' : (m.opening ctx).process p = .ok tok := hproc
    have hname' : (m.opening ctx).hookNamed n = .ok id := hname
    rw [call_of_plain hproc' hget' rfl]
    simp only [plainProcessCall, hname', hremove, change]
    rfl
  obtain ⟨htold, hscene⟩ := told?_of_done hcall (by simp) hdone
  have hstep : m.step = m.act := by
    refine step_eq_act ((kept_of_scene hscene).2 ?_)
    have hkept := kept_of_reachable hm.reachable
    have hopening : (m.opening ctx).Kept m.heldTokens m.heldIds := ⟨hkept.processes, hkept.instances⟩
    exact hopening.modifyProcess fun _ => rfl
  have hworld : m.step.session.world = (m.opening ctx).world.modifyProcess tok fun p =>
      { p with hooks := (q.hooks.remove id).2 } := by
    rw [hstep]
    exact congrArg (fun sc => sc.session.world) hscene
  have hothers : ∀ tok', tok' ≠ tok →
      m.step.session.world.processes.get? tok' = m.session.world.processes.get? tok' := by
    intro tok' hne
    rw [hworld, get?_modifyProcess, if_neg hne]
    rfl
  have hown : m.step.session.world.processes.get? tok =
      some { q with hooks := (q.hooks.remove id).2 } := by
    rw [hworld, get?_modifyProcess, if_pos rfl, hget']
    rfl
  rw [hstep, htold]
  rw [hstep] at hown hothers
  cases hout : outstanding tok id past with
  | true =>
    obtain ⟨hfound, hloses⟩ := Hooks.loses_of_mem htracks.nodup ((htracks.ids id).2 hout)
    rw [hfound]
    exact ⟨rfl, ⟨_, hown, hloses⟩, hothers⟩
  | false =>
    have hnot : id ∉ q.hooks.ids := by
      rw [htracks.ids, hout]
      exact Bool.false_ne_true
    rw [Hooks.remove_of_not_mem hnot] at hown ⊢
    exact ⟨rfl, ⟨_, hown, rfl⟩, hothers⟩

/-- A program with two processes, each of which registers a hook. The first one is asked twice to
remove the hook of the second. -/
def hooksOfTwo : Machine :=
  start default default 0 [
    .call none (.start "p" none),
    .call none (.start "q" none),
    .register none ⟨some "p", .created, some "h", "a", 0⟩ [],
    .register none ⟨some "q", .created, some "k", "b", 0⟩ [],
    .call none (.process "p" (.removeHook "k")),
    .call none (.process "p" (.removeHook "k"))]

/-- The second removal finds nothing that is outstanding. -/
theorem removed_once : ∃ q, (hooksOfTwo.run 5).session.world.live ⟨1⟩ = .ok q ∧
    (hooksOfTwo.run 5).step.told? = some (.ok (.flag false)) := by
  have hm : History settled (trail 5 hooksOfTwo []) (hooksOfTwo.run 5) := .of_run (by decide +kernel)
  have hcall : (hooksOfTwo.run 5).nextCall? =
      some (⟨.main, .nothing, none⟩, .process "p" (.removeHook "k")) := by rfl
  have hname : (hooksOfTwo.run 5).session.hookNamed "k" = .ok ⟨0⟩ := by rfl
  have hlive : ∃ q, (hooksOfTwo.run 5).session.world.live ⟨1⟩ = .ok q := ⟨_, by rfl⟩
  obtain ⟨q, hq⟩ := hlive
  have htold := (hook_removed hm hcall (by rfl) hname hq (by decide +kernel)).1
  have hout : outstanding ⟨1⟩ ⟨0⟩ (trail 5 hooksOfTwo []) = false := by decide +kernel
  rw [hout] at htold
  exact ⟨q, hq, htold⟩

/-- The process whose registration was the last to be kept by a name. -/
def issuer? (n : Name) (past : List Machine) : Option Token :=
  past.findSome? fun m =>
    match m.next? with
    | some (_, .register _ r _) => if r.as? = some n then m.issues?.map (·.1) else none
    | _ => none

/-- It is not so that a process removes nothing when it is given the identity of a hook of another
process. -/
theorem removed_by_another :
    ¬ ∀ (past : List Machine) (m : Machine) (ctx : Context) (p n : Name) (tok tok' : Token) (id : HookId)
        (q : Process),
      History settled past m → m.nextCall? = some (ctx, .process p (.removeHook n)) →
      m.session.process p = .ok tok → m.session.hookNamed n = .ok id →
      m.session.world.live tok = .ok q → m.session.world.holds ctx.thread = [] →
      issuer? n past = some tok' → tok' ≠ tok → m.step.told? = some (.ok (.flag false)) := by
  intro hall
  have hm : History settled (trail 4 hooksOfTwo []) (hooksOfTwo.run 4) := .of_run (by decide +kernel)
  have htold := hall _ _ ⟨.main, .nothing, none⟩ "p" "k" ⟨1⟩ ⟨2⟩ ⟨0⟩ _ hm (by rfl) (by rfl) (by rfl)
    (by rfl) (by rfl) (by decide +kernel) nofun
  have hfound : (hooksOfTwo.run 4).step.told? = some (.ok (.flag true)) := by rfl
  rw [hfound] at htold
  cases htold

end Machine

end TieredState
