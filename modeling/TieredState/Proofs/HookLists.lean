import TieredState.Proofs.Dispatches

/-!
# What a step does to the hooks of processes

The hooks that a process has for an event stand in the order of their registration. A step removes
some of them, or adds one behind the others, which has just got its identity. Their code is never
dropped, so what is listed to be called can be called.

* `hookStep_act` — what a step of any kind does to hooks.
* `ready_of_run` — wherever a run of orderly steps comes to, what dispatches have listed is there.
-/

namespace TieredState

/-- A hook goes behind those of the same event. -/
theorem Hooks.snapshot_register (h : Hooks) (e e' : HookEvent) (c : CallbackId) :
    (h.register e c).2.snapshot e' = if e' = e then h.snapshot e' ++ [c] else h.snapshot e' := by
  cases e <;> cases e' <;> simp [register, snapshot, list]

namespace World

variable {w w' : World} {tok : Token}

/-- The hooks that are listed are those of the process at the time. -/
theorem listed_of_get? {p : Process} (hp : w.processes.get? tok = some p) (e : HookEvent) :
    w.listed tok e = p.hooks.snapshot e := by
  unfold listed
  rw [hp]
  rfl

/-- Where hooks are kept, no other hook is listed, and those that are stand in the same order. -/
theorem HooksKept.listed (h : HooksKept w w') (tok : Token) (e : HookEvent) :
    (w'.listed tok e).Sublist (w.listed tok e) := by
  cases hp' : w'.processes.get? tok with
  | none =>
    have hnone : w'.listed tok e = [] := by
      unfold World.listed
      rw [hp']
      rfl
    rw [hnone]
    exact List.nil_sublist _
  | some p' =>
    rw [listed_of_get? hp']
    rcases h tok p' hp' with hnew | ⟨p, hp, -, hsub⟩
    · have hnone : p'.hooks.snapshot e = [] := by
        rw [hnew]
        cases e <;> rfl
      rw [hnone]
      exact List.nil_sublist _
    · rw [listed_of_get? hp]
      exact (hsub e).map _

end World

namespace Session

open World

variable {s s' s'' : Session}

/-- What a step can do to hooks. -/
structure HookStep (s s' : Session) : Prop where
  nextCallback : s.nextCallback ≤ s'.nextCallback
  callbacks : ∀ c, s.callbacks.contains c = true → s'.callbacks.contains c = true
  listed : ∀ tok e, (s'.world.listed tok e).Sublist (s.world.listed tok e) ∨
    s'.world.listed tok e = s.world.listed tok e ++ [⟨s.nextCallback⟩] ∧
      s'.callbacks.contains ⟨s.nextCallback⟩ = true ∧ s.nextCallback < s'.nextCallback

namespace HookStep

/-- A quiet step adds no hook. -/
theorem quiet (h : Quiet s s') : HookStep s s' where
  nextCallback := Nat.le_of_eq h.nextCallback.symm
  callbacks c hc := by
    rw [h.callbacks]
    exact hc
  listed tok e := .inl (h.hooks.listed tok e)

/-- The events to be reported do not matter. -/
theorem of_silent (h : HookStep s s') (heq : s''.silent = s'.silent) : HookStep s s'' := by
  have hsilent : HookStep s s'.silent := ⟨h.nextCallback, h.callbacks, h.listed⟩
  rw [← heq] at hsilent
  exact ⟨hsilent.nextCallback, hsilent.callbacks, hsilent.listed⟩

/-- What was in the table, or is put into it, is there. -/
theorem contains_insert {α : Type} {k j : CallbackId} {v : α} {t : Table CallbackId α}
    (h : j = k ∨ t.contains j = true) : (t.insert k v).contains j = true := by
  unfold Table.contains at h ⊢
  rw [Table.get?_insert]
  split
  · rfl
  · next hne => exact h.resolve_left hne

/-- The code of a hook stays when the hook is called. -/
theorem called (s : Session) (id : CallbackId) (c : Callback) : HookStep s (s.called id c) where
  nextCallback := Nat.le_refl _
  callbacks _ hc := contains_insert (.inr hc)
  listed _ _ := .inl (.refl _)

/-- A hook that is registered comes with its code. -/
theorem registerHook (s : Session) (ctx : Context) (r : HookRequest) (steps : List Step) :
    HookStep s (s.registerHook ctx r steps).2 := by
  rcases registerHook_cases s ctx r steps with heq | ⟨tok, p, hp, hworld, hcallbacks, hnext⟩
  · rw [heq]
    exact .quiet (.refl s)
  · refine ⟨by omega, fun c hc => ?_, fun tok' e => ?_⟩
    · rw [hcallbacks]
      exact contains_insert (.inr hc)
    · rw [hworld, hcallbacks, hnext]
      -- the list of the process grows at its end, and the new callback is known from then on
      by_cases htok : tok' = tok
      · subst htok
        have hget : (s.world.modifyProcess tok' fun q =>
            { q with hooks := (p.hooks.register r.event ⟨s.nextCallback⟩).2 }).processes.get? tok' =
              some { p with hooks := (p.hooks.register r.event ⟨s.nextCallback⟩).2 } := by
          rw [get?_modifyProcess, if_pos rfl, hp]
          rfl
        rw [listed_of_get? hget, listed_of_get? hp, Hooks.snapshot_register]
        split
        · exact .inr ⟨rfl, contains_insert (.inl rfl), Nat.lt_succ_self _⟩
        · exact .inl (.refl _)
      · have hsame : (s.world.modifyProcess tok fun q =>
            { q with hooks := (p.hooks.register r.event ⟨s.nextCallback⟩).2 }).listed tok' e =
              s.world.listed tok' e := by
          unfold World.listed
          rw [get?_modifyProcess, if_neg htok]
        rw [hsame]
        exact .inl (.refl _)

end HookStep

end Session

namespace Machine

open World Session

variable {m m' : Machine}

/-- A step of any kind removes hooks, or adds one. -/
theorem hookStep_act (m : Machine) : HookStep m.session m.act.session := by
  -- all but a registration changes no list of hooks, or takes some away
  have hopening : ∀ ctx, Quiet m.session (m.opening ctx) := fun _ => (Steady.touch _ _).toQuiet
  have hturn := act_turn m
  generalize hsc : m.act.scene = sc at hturn
  have of_scene : ∀ {s stack}, m.act.scene = Scene.of s stack → HookStep m.session s →
      HookStep m.session m.act.session := fun heq h => h.of_silent (congrArg Scene.session heq)
  cases hturn with
  | idle hstack hnext => exact of_scene hsc (.quiet (.refl _))
  | served hcall hdone hserved =>
    exact of_scene hsc (.quiet ((hopening _).trans (.touches (touches_served hserved))))
  | begins job hcall hproc hrunning hbegins =>
    exact of_scene hsc (.quiet ((hopening _).trans (Steady.begins hbegins).toQuiet))
  | refused hnext hcall => exact of_scene hsc (.quiet (hopening _))
  | opens job hnext hent =>
    exact of_scene hsc (.quiet ((hopening _).trans (.entered (entered_of_enter hent))))
  | @registers ctx on? r steps hnext =>
    have hregister := HookStep.registerHook (m.opening ctx) ctx r steps
    exact of_scene hsc ⟨hregister.nextCallback, hregister.callbacks, hregister.listed⟩
  | fails hnext => exact of_scene hsc (.quiet ((hopening _).trans (.unwind _ _)))
  | closes hstack hpending => exact of_scene hsc (.quiet (.undo _ _))
  | skips hstack hpending hnone => exact of_scene hsc (.quiet (.refl _))
  | calls hstack hpending hcallback => exact of_scene hsc (.called _ _ _)
  | finishes hstack hfin hdone => exact of_scene hsc (.quiet (.finishes (finishes_of_finish hdone)))
  | goesOn hstack hfin hrunning => exact of_scene hsc (.quiet (.finishes (finishes_of_finish hrunning)))

/-! ## What is listed is there -/

/-- The code of a hook is never dropped. -/
theorem callbacks_step {c : CallbackId} (h : m.session.callbacks.contains c = true) :
    m.step.session.callbacks.contains c = true := by
  have hsweep := Quiet.sweep m.act.session m.actor m.act.heldTokens m.act.heldIds
  show (m.act.session.sweep m.actor m.act.heldTokens m.act.heldIds).callbacks.contains c = true
  rw [hsweep.callbacks]
  exact (hookStep_act m).callbacks c h

/-- What is to be called after a step was to be called before it, or was listed then. -/
theorem pending_act (hturn : DispatchTurn m) {d : Dispatch} (hd : d ∈ m.act.dispatches)
    {c : CallbackId} (hc : c ∈ d.pending) : (∃ d₀ ∈ m.dispatches, c ∈ d₀.pending) ∨
      ∃ tok e, c ∈ m.session.world.listed tok e := by
  -- a dispatch that begins or goes on calls what was listed, and one under way less than before
  cases hturn with
  | still hbegun hcalled hact =>
    rw [hact] at hd
    exact .inl ⟨d, hd, hc⟩
  | creates hbegun hcalled hact hpending | removes hbegun hcalled hact hpending =>
    rw [hact] at hd
    rcases List.mem_cons.1 hd with rfl | hd
    · exact .inr ⟨_, _, hpending ▸ hc⟩
    · exact .inl ⟨d, hd, hc⟩
  | @calls d₀ ds c₀ rest hbegun hcalled hstack hpending hact =>
    rw [hact] at hd
    rw [hstack]
    rcases List.mem_cons.1 hd with rfl | hd
    · refine .inl ⟨d₀, List.mem_cons_self, ?_⟩
      rw [hpending]
      exact List.mem_cons_of_mem _ hc
    · exact .inl ⟨d, List.mem_cons_of_mem _ hd, hc⟩
  | finishes hbegun hcalled hstack hpending hawait hact =>
    rw [hact] at hd
    rw [hstack]
    exact .inl ⟨d, List.mem_cons_of_mem _ hd, hc⟩
  | goesOn hbegun hcalled hstack hpending hact hpending' =>
    rw [hact] at hd
    rw [hstack]
    rcases List.mem_cons.1 hd with rfl | hd
    · exact .inr ⟨_, _, hpending' ▸ hc⟩
    · exact .inl ⟨d, List.mem_cons_of_mem _ hd, hc⟩

/-- After an orderly step the code of every hook is there. -/
theorem ready_step (hok : m.orderly = true) (hs : m.Sound) (heased : m.Eased) (h : m.Ready) :
    m.step.Ready := by
  constructor
  · intro d hd c hc
    refine callbacks_step ?_
    rcases pending_act (dispatchTurn_act hok hs heased h) hd hc with ⟨d₀, hd₀, hc₀⟩ | ⟨tok, e, hlisted⟩
    · exact h.pending d₀ hd₀ c hc₀
    · exact h.listed tok e c hlisted
  · intro tok e c hc
    have hsweep := Quiet.sweep m.act.session m.actor m.act.heldTokens m.act.heldIds
    have hlisted := (hsweep.hooks.listed tok e).subset hc
    rcases (hookStep_act m).listed tok e with hsub | ⟨heq, hcode, -⟩
    · exact callbacks_step (h.listed tok e c (hsub.subset hlisted))
    · rw [heq] at hlisted
      rcases List.mem_append.1 hlisted with hold | hnew
      · exact callbacks_step (h.listed tok e c hold)
      · -- the code of the new hook came with it
        obtain rfl := List.mem_singleton.1 hnew
        show (m.act.session.sweep m.actor m.act.heldTokens m.act.heldIds).callbacks.contains _ = true
        rw [hsweep.callbacks]
        exact hcode

/-- Other steps to be taken change nothing else. -/
theorem session_redirect (m : Machine) (steps : List Step) :
    (m.redirect steps).session = m.session := by
  unfold redirect
  split <;> rfl

/-- New steps that are put in leave dispatches as they are. -/
theorem dispatches_redirect (m : Machine) (steps : List Step) :
    (m.redirect steps).dispatches = m.dispatches :=
  flatMap_of_scene Frame.dispatches_shell (scene_redirect m steps)

theorem ready_redirect (h : m.Ready) (steps : List Step) : (m.redirect steps).Ready := by
  refine ⟨?_, ?_⟩
  · rw [dispatches_redirect, session_redirect]
    exact h.pending
  · rw [session_redirect]
    exact h.listed

/-- In every orderly run the code of every hook is there. -/
theorem ready_of_run (hs : m.Sound) (heased : m.Eased) (h : m.Ready) (hrun : Run orderly m m') :
    m'.Ready := by
  induction hrun with
  | refl => exact h
  | step hrun hok ih => exact ready_step hok (sound_of_run hs hrun).1 (eased_of_run heased hrun) ih
  | redirect _ steps ih => exact ready_redirect ih steps

/-- Wherever a program comes to by orderly steps, the next one is a turn of dispatches. -/
theorem dispatchTurn_of_reachable (hm : Reachable orderly m) (hok : m.orderly = true) :
    DispatchTurn m := by
  have hready : m.Ready := by
    obtain ⟨files, environment, fieldCount, script, hrun⟩ := hm
    have hstart : Reachable orderly (start files environment fieldCount script) :=
      ⟨files, environment, fieldCount, script, .refl⟩
    refine ready_of_run (sound_of_reachable hstart) (eased_of_reachable hstart) ⟨?_, ?_⟩ hrun
    · exact fun d hd => absurd hd List.not_mem_nil
    · exact fun tok e c hc => absurd hc List.not_mem_nil
  exact dispatchTurn_act hok (sound_of_reachable hm) (eased_of_reachable hm) hready

end Machine

end TieredState
