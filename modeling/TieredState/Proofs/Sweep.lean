import TieredState.Proofs.Locks

/-!
# Nothing is kept in vain

At the end of every step goes what nothing refers to any more. So at every point of a run there is a
reason for everything that there is: `Kept`. A step that lets go of nothing has nothing to sweep.

* `kept_of_run` — everything is kept for a reason, at every point of every run.
* `step_eq_act` — a step after which everything is still kept ends without a change.
-/

namespace TieredState

namespace Table

variable {κ α : Type} [DecidableEq κ]

/-- A table with all entries that the condition asks for is left as it is. -/
theorem filter_eq_self {t : Table κ α} {p : κ → α → Bool}
    (h : ∀ k v, t.get? k = some v → p k v = true) : t.filter p = t := by
  obtain ⟨es, nodup⟩ := t
  have hall : es.filter (fun e => p e.1 e.2) = es :=
    List.filter_eq_self.2 fun e he => h e.1 e.2 (get?_eq_some.2 he)
  unfold filter
  congr

end Table

namespace Session

/-- Everything that there is is kept in existence, by a name, by what is under way, by the program as
a whole or by a registry. -/
structure Kept (s : Session) (tokens : List Token) (ids : List InstanceId) : Prop where
  processes : ∀ tok p, s.world.processes.get? tok = some p →
    tok ∈ s.processes.values ++ s.world.installed?.toList ++ tokens
  instances : ∀ id i, s.world.instances.get? id = some i →
    ((s.instances.values ++ ids).contains id ||
      s.world.processes.values.any (·.registry.contains id)) = true

variable {s : Session} {t : ThreadId} {tokens : List Token} {ids : List InstanceId}

/-- Where everything is kept, the sweep changes nothing. -/
theorem sweep_of_kept (h : s.Kept tokens ids) (t : ThreadId) : s.sweep t tokens ids = s := by
  have hlost : s.lost tokens = [] := by
    refine List.eq_nil_iff_forall_not_mem.2 fun tok hmem => ?_
    obtain ⟨⟨p, hp⟩, hnot⟩ := mem_lost.1 hmem
    exact hnot (h.processes tok p hp)
  have hinstances : s.world.instances.filter (fun id _ => (s.instances.values ++ ids).contains id ||
      s.world.processes.values.any (·.registry.contains id)) = s.world.instances :=
    Table.filter_eq_self h.instances
  unfold lost at hlost
  unfold sweep
  dsimp only
  rw [hlost, List.foldl_nil, hinstances]
  rfl

/-- A process may change in all but its registry. -/
theorem Kept.modifyProcess (h : s.Kept tokens ids) {tok : Token} {f : Process → Process}
    (hf : ∀ p, (f p).registry = p.registry) : (s.modifyProcess tok f).Kept tokens ids := by
  constructor
  · intro tok' p hp
    rcases (World.get?_modifyProcess_eq_some _ _ _).1 hp with ⟨rfl, q, hq, -⟩ | ⟨-, hp⟩
    · exact h.processes _ q hq
    · exact h.processes _ p hp
  · intro id i hi
    rw [Bool.or_eq_true, List.any_eq_true]
    rcases Bool.or_eq_true_iff.1 (h.instances id i hi) with hnamed | hregistered
    · exact .inl hnamed
    · obtain ⟨p, hmem, hid⟩ := List.any_eq_true.1 hregistered
      obtain ⟨tok', hp⟩ := Table.mem_values.1 hmem
      refine .inr ?_
      by_cases heq : tok' = tok
      · refine ⟨f p, Table.mem_values.2 ⟨tok', ?_⟩, (hf p).symm ▸ hid⟩
        exact (World.get?_modifyProcess_eq_some _ _ _).2 (.inl ⟨heq, p, heq ▸ hp, rfl⟩)
      · exact ⟨p, Table.mem_values.2 ⟨tok', (World.get?_modifyProcess_eq_some _ _ _).2
          (.inr ⟨heq, hp⟩)⟩, hid⟩

/-- After a sweep everything is kept. -/
theorem kept_sweep (s : Session) (t : ThreadId) (tokens : List Token) (ids : List InstanceId) :
    (s.sweep t tokens ids).Kept tokens ids where
  processes := by
    intro tok p hp
    obtain ⟨hlost, hp⟩ := get?_of_sweep hp
    rw [installed?_sweep]
    -- a process that is not lost is kept
    by_contra hnot
    exact hlost (mem_lost.2 ⟨⟨p, hp⟩, hnot⟩)
  instances := by
    intro id i hi
    rw [instances_sweep, Option.filter_eq_some_iff] at hi
    exact hi.2

end Session

namespace Machine

variable {allowed : Machine → Bool} {m m' : Machine}

/-- Everything that there is is kept in existence. -/
def Kept (m : Machine) : Prop := m.session.Kept m.heldTokens m.heldIds

/-- Steps, taken or not, keep nothing in existence. -/
theorem kept_of_scene {s : Session} {stack : List Frame} (h : m.scene = .of s stack) :
    m.Kept ↔ s.Kept (stack.flatMap Frame.tokens) (stack.flatMap Frame.ids) := by
  obtain ⟨hsession, -⟩ := Scene.mk.inj h
  have htokens : m.heldTokens = stack.flatMap Frame.tokens := flatMap_of_scene Frame.tokens_shell h
  have hids : m.heldIds = stack.flatMap Frame.ids := flatMap_of_scene Frame.ids_shell h
  have hsilent : ∀ {s s' : Session} {tokens : List Token} {ids : List InstanceId},
      s.silent = s'.silent → s.Kept tokens ids → s'.Kept tokens ids := by
    intro s s' tokens ids heq hkept
    have hkept' : s.silent.Kept tokens ids := ⟨hkept.processes, hkept.instances⟩
    rw [heq] at hkept'
    exact ⟨hkept'.processes, hkept'.instances⟩
  unfold Kept
  rw [htokens, hids]
  exact ⟨hsilent hsession, hsilent hsession.symm⟩

/-- Everything is kept for a reason at every point of a run, whatever its steps are. -/
theorem kept_of_run (h : m.Kept) (hrun : Run allowed m m') : m'.Kept := by
  induction hrun with
  | refl => exact h
  | step _ _ _ => exact Session.kept_sweep _ _ _ _
  | @redirect m' _ steps ih =>
    have hscene : (m'.redirect steps).scene = .of m'.session m'.stack := scene_redirect m' steps
    exact (kept_of_scene hscene).2 ih

/-- At every point of every run everything is kept. -/
theorem kept_of_reachable (h : Reachable allowed m) : m.Kept := by
  obtain ⟨files, environment, fieldCount, script, hrun⟩ := h
  have hstart : (start files environment fieldCount script).Kept :=
    ⟨fun _ _ hp => (by cases hp), fun _ _ hi => (by cases hi)⟩
  exact kept_of_run hstart hrun

/-- A step is over before the sweep if everything is kept by then. -/
theorem step_eq_act (h : m.act.Kept) : m.step = m.act := by
  have hsweep := Session.sweep_of_kept h m.actor
  show ({ m.act with session := m.act.session.sweep m.actor m.act.heldTokens m.act.heldIds } :
    Machine) = m.act
  rw [hsweep]

end Machine

end TieredState
