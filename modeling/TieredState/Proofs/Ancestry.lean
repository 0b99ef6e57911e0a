import Mathlib.Logic.Relation
import TieredState.Proofs.Rolls

/-!
# Order and ancestry of instances

A registry has its members sorted by identity, and the initial instance in fields of its own. Identities
come from one counter for all processes, and a creation that fails uses one up. For a process that is not
shut down the registry still says what the past of the run does, whatever hooks and failures came between:
its members are the instances that were registered and not destroyed, in the order of their registration,
and the initial one is the first of all, as long as it is not destroyed. The parent of an instance was
registered before it, so no chain of parents comes back to where it began.

* `Registry.ofPast` — the registry as the past tells it.
* `enrolled_of_history` — it is the registry of the process, at every point of every run.
* `Born` — the step at which an instance was registered.
* `instances_in_order` — what a process tells of its instances, and how these descend from one another.
-/

namespace TieredState

namespace Registry

variable {joined destroyed ms : List InstanceId} {id : InstanceId}

/-- The registry with which some instances were registered, the first one first, and of which some of
these were taken out again. -/
def ofPast (joined destroyed : List InstanceId) : Registry where
  members := joined.filter (· ∉ destroyed)
  initial? := joined.head?.filter (· ∉ destroyed)
  initialChosen := !joined.isEmpty

/-- The youngest instance is registered last. -/
theorem insertAscending_of_lt (h : ∀ m ∈ ms, m.number < id.number) :
    insertAscending id ms = ms ++ [id] := by
  induction ms with
  | nil => rfl
  | cons a ms ih =>
    obtain ⟨hlt, hrest⟩ := List.forall_mem_cons.1 h
    unfold insertAscending
    rw [if_pos hlt, ih hrest]
    rfl

/-- An instance that is registered comes last. It is the initial one if there was none before. -/
theorem insert_ofPast (habove : ∀ m ∈ joined, m.number < id.number) (hnew : id ∉ destroyed) :
    (ofPast joined destroyed).insert id = ofPast (joined ++ [id]) destroyed := by
  have hmembers : insertAscending id (joined.filter (· ∉ destroyed)) =
      (joined ++ [id]).filter (· ∉ destroyed) := by
    rw [insertAscending_of_lt fun m hm => habove m (List.mem_of_mem_filter hm), List.filter_append]
    simp [hnew]
  unfold insert ofPast
  cases joined with
  | nil => simp [hnew, insertAscending, Option.filter_some]
  | cons a joined =>
    dsimp only
    rw [hmembers]
    rfl

/-- An instance that is taken out is one more that was destroyed. -/
theorem remove_ofPast (hmem : id ∈ (ofPast joined destroyed).members) :
    (ofPast joined destroyed).remove id = ofPast joined (destroyed ++ [id]) := by
  have hmembers : (joined.filter (· ∉ destroyed)).filter (· ≠ id) =
      joined.filter (· ∉ destroyed ++ [id]) := by
    rw [List.filter_filter]
    refine List.filter_congr fun m _ => ?_
    simp [and_comm]
  have hinitial : (if joined.head?.filter (· ∉ destroyed) = some id then none
      else joined.head?.filter (· ∉ destroyed)) = joined.head?.filter (· ∉ destroyed ++ [id]) := by
    cases joined with
    | nil => rfl
    | cons a joined =>
      simp only [List.head?_cons, Option.filter_some]
      by_cases ha : a ∈ destroyed
      · simp [ha]
      · by_cases heq : a = id
        · simp [heq]
        · simp [ha, heq]
  unfold remove ofPast
  dsimp only
  rw [hmembers, hinitial]

/-- The initial instance is a member. -/
theorem initialMember?_ofPast :
    (ofPast joined destroyed).initialMember? = joined.head?.filter (· ∉ destroyed) := by
  unfold initialMember? ofPast contains
  cases joined with
  | nil => rfl
  | cons a joined =>
    rw [List.head?_cons, Option.filter_some]
    by_cases ha : a ∈ destroyed <;> simp [ha, Option.filter_some]

/-- It is the first one. -/
theorem head?_members_ofPast (h : joined.head?.filter (· ∉ destroyed) = some id) :
    (joined.filter (· ∉ destroyed)).head? = some id := by
  obtain ⟨hhead, hnot⟩ := Option.filter_eq_some_iff.1 h
  obtain ⟨rest, rfl⟩ := List.head?_eq_some_iff.1 hhead
  simp only [List.filter_cons, hnot, if_true, List.head?_cons]

end Registry

namespace World

/-- The instance `child` records `parent` as the one that it was spawned from. -/
def ParentOf (w : World) (parent child : InstanceId) : Prop :=
  ∃ i, w.instances.get? child = some i ∧ i.parent? = some parent

end World

namespace Machine

open World Session

/-! ## What the past tells -/

/-- The instances that were registered with the process, in the order of their registration. -/
def joined (tok : Token) (past : List Machine) : List InstanceId :=
  past.reverse.filterMap (·.joins? tok)

/-- The instances that were taken from its registry to be destroyed. -/
def destroyed (tok : Token) (past : List Machine) : List InstanceId :=
  past.reverse.filterMap (·.destroys? tok)

/-- Those that are registered still. -/
def remaining (tok : Token) (past : List Machine) : List InstanceId :=
  (joined tok past).filter (· ∉ destroyed tok past)

/-- The first one that was ever registered, unless it was destroyed. -/
def first? (tok : Token) (past : List Machine) : Option InstanceId :=
  (joined tok past).head?.filter (· ∉ destroyed tok past)

variable {m m' : Machine} {past : List Machine} {ctx : Context} {tok : Token} {id : InstanceId}
  {i : Instance}

/-- The instance that the latest step registers comes last. -/
theorem joined_cons : joined tok (m :: past) = joined tok past ++ (m.joins? tok).toList := by
  unfold joined
  rw [List.reverse_cons, List.filterMap_append]
  cases h : m.joins? tok <;> simp [h]

/-- The instance that the latest step takes out comes last. -/
theorem destroyed_cons : destroyed tok (m :: past) = destroyed tok past ++ (m.destroys? tok).toList := by
  unfold destroyed
  rw [List.reverse_cons, List.filterMap_append]
  cases h : m.destroys? tok <;> simp [h]

/-- An instance has joined if a step of the past registered it. -/
theorem mem_joined : id ∈ joined tok past ↔ ∃ m₁ ∈ past, m₁.joins? tok = some id := by
  unfold joined
  rw [List.mem_filterMap]
  simp only [List.mem_reverse]

/-! ## Registries -/

/-- The registries of processes are as the past tells them. -/
structure Enrolled (past : List Machine) (m : Machine) : Prop where
  drawn : ∀ tok, ∀ id ∈ joined tok past, id.number < m.session.world.nextInstance
  known : ∀ tok, joined tok past ≠ [] → tok.number < m.session.world.nextToken
  subset : ∀ tok, destroyed tok past ⊆ joined tok past
  ascending : ∀ tok, Registry.Ascending (joined tok past)
  registry : ∀ tok p, m.session.world.live tok = .ok p →
    p.registry = .ofPast (joined tok past) (destroyed tok past)

/-- Nothing joins or leaves a process whose token has not been drawn. -/
theorem none_of_undrawn (hd : m.Dated) {w' : World}
    (h : Enlists m.session.world w' m.joins? m.destroys?)
    (hnew : m.session.world.nextToken ≤ tok.number) : m.joins? tok = none ∧ m.destroys? tok = none := by
  have hnone : ∀ p, m.session.world.live tok ≠ .ok p := fun p hp =>
    Nat.not_lt.2 hnew (hd.processes tok p (live_ok.1 hp).1).1
  constructor
  · refine Option.eq_none_iff_forall_ne_some.2 fun id hid => ?_
    obtain ⟨-, -, p, hp⟩ := h.joins tok id hid
    exact hnone p hp
  · refine Option.eq_none_iff_forall_ne_some.2 fun id hid => ?_
    obtain ⟨p, hp, -⟩ := h.leaves tok id hid
    exact hnone p hp

/-- The registry of a process that lives on, after a step. -/
theorem Enrolled.registry_step (h : Enrolled past m) (hd : m.Dated)
    (hstep : Enlists m.session.world m.step.session.world m.joins? m.destroys?) {p' : Process}
    (hp' : m.step.session.world.live tok = .ok p') :
    p'.registry = .ofPast (joined tok (m :: past)) (destroyed tok (m :: past)) := by
  rw [joined_cons, destroyed_cons]
  rcases hstep.processes tok p' hp' with ⟨p, hp, hchanges⟩ | ⟨hnew, hempty⟩
  · rw [h.registry tok p hp] at hchanges
    generalize m.joins? tok = joins, m.destroys? tok = leaves, p'.registry = r at hchanges ⊢
    cases hchanges with
    | stays => simp
    | joins =>
      -- what is registered has the greatest identity so far, and nothing of it was destroyed
      have habove := h.drawn tok
      have hnot : (⟨m.session.world.nextInstance⟩ : InstanceId) ∉ destroyed tok past :=
        fun hin => Nat.lt_irrefl _ (habove _ (h.subset tok hin))
      simpa using Registry.insert_ofPast habove hnot
    | leaves hmem => simpa using Registry.remove_ofPast hmem
  · have hnone : joined tok past = [] := by
      by_contra hsome
      exact Nat.not_lt.2 hnew (h.known tok hsome)
    have hnone' : destroyed tok past = [] := List.subset_nil.1 (hnone ▸ h.subset tok)
    obtain ⟨hjoins, hdestroys⟩ := none_of_undrawn hd hstep hnew
    rw [hempty, hnone, hnone', hjoins, hdestroys]
    rfl

/-- The registries are as the past tells them after one more step. -/
theorem enrolled_step (h : Enrolled past m) (hd : m.Dated) (hok : m.unedited = true) :
    Enrolled (m :: past) m.step := by
  -- at most one instance joins or leaves a process, and the sweep only takes whole processes away
  have hstep := (enlists_act hok).before (rests_sweep m)
  refine ⟨fun tok id hid => ?_, fun tok hsome => ?_, fun tok id hid => ?_, fun tok => ?_,
    fun tok p' => h.registry_step hd hstep⟩
  · rw [joined_cons] at hid
    rcases List.mem_append.1 hid with hold | hnew
    · exact Nat.lt_of_lt_of_le (h.drawn tok id hold) hstep.nextInstance
    · obtain ⟨rfl, hlt, -⟩ := hstep.joins tok id (Option.mem_toList.1 hnew)
      exact hlt
  · rw [joined_cons] at hsome
    refine Nat.lt_of_lt_of_le ?_ hstep.nextToken
    cases hjoins : m.joins? tok with
    | none =>
      rw [hjoins, Option.toList_none, List.append_nil] at hsome
      exact h.known tok hsome
    | some id =>
      obtain ⟨-, -, p, hp⟩ := hstep.joins tok id hjoins
      exact (hd.processes tok p (live_ok.1 hp).1).1
  · rw [destroyed_cons] at hid
    rw [joined_cons]
    refine List.mem_append_left _ ?_
    rcases List.mem_append.1 hid with hold | hnew
    · exact h.subset tok hold
    · obtain ⟨p, hp, hmem⟩ := hstep.leaves tok id (Option.mem_toList.1 hnew)
      rw [h.registry tok p hp] at hmem
      exact List.mem_of_mem_filter hmem
  · rw [joined_cons]
    refine List.pairwise_append.2 ⟨h.ascending tok, ?_, fun a ha b hb => ?_⟩
    · cases m.joins? tok with
      | none => exact List.Pairwise.nil
      | some id => exact List.pairwise_singleton _ _
    · obtain ⟨rfl, -⟩ := hstep.joins tok b (Option.mem_toList.1 hb)
      exact h.drawn tok a ha

/-- At every point of every run that changes no registry past every check, the registries are as the past
tells them. -/
theorem enrolled_of_history (hm : History unedited past m) : Enrolled past m := by
  obtain ⟨files, environment, fieldCount, script, htrace⟩ := hm
  induction htrace with
  | start =>
    refine ⟨fun _ _ hid => absurd hid List.not_mem_nil, fun _ hsome => absurd rfl hsome,
      fun _ => List.nil_subset _, fun _ => List.Pairwise.nil, fun tok p hp => ?_⟩
    cases (live_ok.1 hp).1
  | step htrace hok ih =>
    have hreach : Reachable unedited _ := ⟨files, environment, fieldCount, script, htrace.run⟩
    exact enrolled_step ih (dated_of_reachable hreach) hok
  | redirect _ steps ih =>
    exact ⟨(world_redirect _ steps).symm ▸ ih.drawn, (world_redirect _ steps).symm ▸ ih.known, ih.subset,
      ih.ascending, (world_redirect _ steps).symm ▸ ih.registry⟩

/-! ## Births -/

/-- The next step registers the instance. It is a call on its process, to create it or to spawn it from
the parent that it records, and that was registered with the same process before. -/
structure Bears (m : Machine) (past : List Machine) (id : InstanceId) (i : Instance) : Prop where
  joins : m.joins? i.owner = some id
  call : ∃ ctx p c, m.nextCall? = some (ctx, .process p c) ∧ m.session.process p = .ok i.owner ∧
    (m.opening ctx).Creates ctx c i.parent?
  parent : ∀ parent, i.parent? = some parent →
    parent ∈ joined i.owner past ∧ parent.number < id.number

/-- The instance was registered by a step of the past. -/
def Born (past : List Machine) (id : InstanceId) (i : Instance) : Prop :=
  ∃ later m earlier, past = later ++ m :: earlier ∧ m.Bears earlier id i

/-- An instance that was born was so when there is more past. -/
theorem Born.cons (h : Born past id i) (m : Machine) : Born (m :: past) id i := by
  obtain ⟨later, m₁, earlier, rfl, hbears⟩ := h
  exact ⟨m :: later, m₁, earlier, rfl, hbears⟩

/-- An instance that was born has joined its process. -/
theorem Born.joined (h : Born past id i) : id ∈ joined i.owner past := by
  obtain ⟨later, m₁, earlier, rfl, hbears⟩ := h
  exact mem_joined.2 ⟨m₁, List.mem_append_right _ List.mem_cons_self, hbears.joins⟩

/-- The process and the parent that an instance records are all that its birth depends on. -/
theorem Born.of_eq {i' : Instance} (h : Born past id i) (howner : i'.owner = i.owner)
    (hparent : i'.parent? = i.parent?) : Born past id i' := by
  obtain ⟨later, m₁, earlier, hpast, hjoins, hcall, hbefore⟩ := h
  rw [← howner] at hjoins hcall hbefore
  rw [← hparent] at hcall hbefore
  exact ⟨later, m₁, earlier, hpast, hjoins, hcall, hbefore⟩

/-- A call that makes an instance goes on with the dispatch of its creation. -/
theorem joins_of_made {p : Name} {c : ProcessCall} {parent? : Option InstanceId}
    (hcall : m.nextCall? = some (ctx, .process p c)) (hproc : m.session.process p = .ok tok)
    (hcreates : (m.opening ctx).Creates ctx c parent?)
    (hnew : m.act.session.world.instances.get? id ≠ m.session.world.instances.get? id) :
    m.joins? tok = some ⟨m.session.world.nextInstance⟩ := by
  obtain ⟨job, hscene⟩ := act_of_nextCall? hcall (by simp)
  obtain ⟨hbegun, -⟩ := begun_of_nextCall? hcall
  have hlifecycle : c.isLifecycle = true := by cases hcreates <;> rfl
  cases hresult : (m.opening ctx).call ctx (.process p c) with
  | done o s =>
    -- a call that is done at once has been refused
    rw [hresult] at hscene
    have hworld : m.act.session.world = s.world := (act_of_scene hscene).2
    refine absurd ?_ hnew
    rw [hworld]
    cases call_done hresult with
    | plain hplain => exact absurd rfl (hplain p c)
    | process _ _ hc =>
      rw [hlifecycle] at hc
      cases hc
    | refused f => rfl
    | drawn _ _ => rfl
    | shutdown _ _ => cases hcreates
  | running d s =>
    rw [hresult] at hbegun hscene
    have hworld : m.act.session.world = s.world := (act_of_scene hscene).2
    obtain ⟨p', c', tok', heq, hproc', hbegins⟩ := call_running hresult
    obtain ⟨rfl, rfl⟩ := Call.process.inj heq
    obtain rfl : tok' = tok := Except.ok.inj (hproc'.symm.trans hproc)
    rw [(joins_of_begun hbegun).1]
    cases hbegins with
    | create as? henroll =>
      rcases enroll_cases (m.opening ctx).world ctx.thread tok' _ with
        ⟨e, hrefused⟩ | ⟨e, hrefused⟩ | ⟨q, -, -, henrolled⟩
      · rw [hrefused] at henroll
        cases henroll
      · rw [hrefused] at henroll
        cases henroll
      · obtain rfl := Except.ok.inj (Prod.mk.inj (henrolled.symm.trans henroll)).1
        exact if_pos rfl
    | destroy hwithdraw =>
      obtain ⟨-, -, -, -, rfl⟩ := withdraw_ok hwithdraw
      exact absurd (by rw [hworld]; rfl) hnew
    | shutdown hbegin =>
      obtain ⟨q, -, -, rfl⟩ := beginShutdown_ok hbegin
      exact absurd (by rw [hworld]; rfl) hnew

/-- An instance can be spawned only from one of the same process. -/
theorem parent_of_running {s s' : Session} {p n : Name} {as? : Option Name} {parent : InstanceId}
    {d : Dispatch} (hproc : s.process p = .ok tok) (hname : s.instanceNamed ctx n = .ok parent)
    (h : s.call ctx (.process p (.spawn n as?)) = .running d s') :
    ∃ i, s.world.instances.get? parent = some i ∧ i.owner = tok := by
  simp only [call, hproc, processCall, hname] at h
  unfold enrollChild at h
  cases howner : s.world.checkOwner tok parent with
  | error e =>
    rw [howner] at h
    cases h
  | ok u => exact checkOwner_ok.1 howner

/-- The parent of an instance that is made was registered with its process. -/
theorem parent_of_made {p : Name} {c : ProcessCall} {parent : InstanceId}
    (hproc : m.session.process p = .ok tok) (hcall : m.nextCall? = some (ctx, .process p c))
    (hcreates : (m.opening ctx).Creates ctx c (some parent)) (hjoins : m.joins? tok = some id) :
    ∃ i, m.session.world.instances.get? parent = some i ∧ i.owner = tok := by
  obtain ⟨hbegun, -⟩ := begun_of_nextCall? hcall
  cases hcreates with
  | spawn as? hname =>
    cases hresult : (m.opening ctx).call ctx (.process p (.spawn _ as?)) with
    | done o s =>
      rw [hresult] at hbegun
      rw [(joins_of_none hbegun).1] at hjoins
      cases hjoins
    | running d s => exact parent_of_running (s := m.opening ctx) hproc hname hresult

/-- After one more step every instance was born in the past. -/
theorem born_step (h : ∀ id i, m.session.world.instances.get? id = some i → Born past id i)
    (henrolled : Enrolled past m) (hs : ∀ id i, m.session.world.instances.get? id = some i →
      id.number < m.session.world.nextInstance)
    (hi : m.step.session.world.instances.get? id = some i) : Born (m :: past) id i := by
  have hact := get?_of_step hi
  have hturn := instanceTurn_act m id
  -- the instance was there before and keeps its parent, or is made in this step
  have hmade : ∀ {ctx p c tok parent?}, m.nextCall? = some (ctx, .process p c) →
      m.session.process p = .ok tok → (m.opening ctx).Creates ctx c parent? →
      id = ⟨m.session.world.nextInstance⟩ → i = { parent?, owner := tok } → Born (m :: past) id i := by
    rintro ctx p c tok parent? hcall hproc hcreates rfl rfl
    have hnone : m.session.world.instances.get? ⟨m.session.world.nextInstance⟩ = none :=
      Option.eq_none_iff_forall_ne_some.2 fun j hj => Nat.lt_irrefl _ (hs _ j hj)
    have hjoins := joins_of_made hcall hproc hcreates (by rw [hact, hnone]; exact Option.some_ne_none _)
    refine ⟨[], m, past, rfl, hjoins, ⟨ctx, p, c, hcall, hproc, hcreates⟩, fun parent hparent => ?_⟩
    obtain rfl : parent? = some parent := hparent
    obtain ⟨j, hj, howner⟩ := parent_of_made hproc hcall hcreates hjoins
    have hbefore := (h parent j hj).joined
    rw [howner] at hbefore
    exact ⟨hbefore, henrolled.drawn tok parent hbefore⟩
  rw [hact] at hturn
  generalize heq : some i = i? at hturn
  cases hturn with
  | same => exact (h id i heq.symm).cons m
  | vars v _ _ hj =>
    obtain rfl := Option.some.inj heq
    exact .cons (.of_eq (h id _ hj) (by rfl) (by rfl)) m
  | marked _ _ _ hj =>
    obtain rfl := Option.some.inj heq
    exact .cons (.of_eq (h id _ hj) (by rfl) (by rfl)) m
  | made hcall hproc hcreates hnew => exact hmade hcall hproc hcreates hnew (Option.some.inj heq)

/-- At every point of every unedited run each instance was born in the past. -/
theorem born_of_history (hm : History unedited past m) :
    ∀ id i, m.session.world.instances.get? id = some i → Born past id i := by
  obtain ⟨files, environment, fieldCount, script, htrace⟩ := hm
  induction htrace with
  | start => exact fun _ _ hi => by cases hi
  | step htrace hok ih =>
    have hm : History unedited _ _ := ⟨files, environment, fieldCount, script, htrace⟩
    obtain ⟨left, hleft⟩ := leftBehind_of_history hm
    exact fun id i hi => born_step ih (enrolled_of_history hm)
      (fun id i hi => (hleft.sound.world.registry.instanceDrawn id i hi).1) hi
  | redirect _ steps ih =>
    rw [world_redirect]
    exact ih

/-! ## What can be told of the instances of a process -/

/-- A run goes on from a point with a past. -/
theorem History.goesOn {allowed : Machine → Bool} (hm : History allowed past m)
    (hrun : Run allowed m m') : ∃ later, History allowed (later ++ past) m' := by
  induction hrun with
  | refl => exact ⟨[], hm⟩
  | @step m' _ hallowed ih =>
    obtain ⟨later, files, environment, fieldCount, script, htrace⟩ := ih
    exact ⟨m' :: later, files, environment, fieldCount, script, htrace.step hallowed⟩
  | redirect _ steps ih =>
    obtain ⟨later, files, environment, fieldCount, script, htrace⟩ := ih
    exact ⟨later, files, environment, fieldCount, script, htrace.redirect steps⟩

/-- The first instance that is gone does not come back. -/
theorem first?_of_gone {later : List Machine} (hsome : joined tok past ≠ [])
    (hnone : first? tok past = none) :
    first? tok (later ++ past) = none := by
  have hjoined : joined tok (later ++ past) = joined tok past ++ later.reverse.filterMap (·.joins? tok) := by
    unfold joined
    rw [List.reverse_append, List.filterMap_append]
  have hdestroyed : destroyed tok past ⊆ destroyed tok (later ++ past) := by
    unfold destroyed
    rw [List.reverse_append, List.filterMap_append]
    exact List.subset_append_left _ _
  obtain ⟨id, rest, hcons⟩ := List.exists_cons_of_ne_nil hsome
  unfold first? at hnone ⊢
  rw [hcons, List.head?_cons, Option.filter_some] at hnone
  rw [hjoined, hcons, List.cons_append, List.head?_cons, Option.filter_some]
  split at hnone
  · cases hnone
  · next hgone =>
    rw [decide_eq_true_eq, not_not] at hgone
    exact if_neg (by simpa using hdestroyed hgone)

/-- What a process that is not shut down tells of its instances. -/
structure Enumerates (past : List Machine) (m : Machine) (tok : Token) : Prop where
  /-- Identities ascend in the order of registration. -/
  ascending : Registry.Ascending (joined tok past)
  /-- It lists the instances that were registered and not destroyed, in this order. -/
  instances : ∀ t, m.session.world.instanceIds t tok =
    (m.session.world.mayTake t .registry).map fun _ => remaining tok past
  /-- The initial one is the first that was registered, unless it was destroyed. -/
  initial : ∀ t, m.session.world.initialInstance t tok =
    (m.session.world.mayTake t .registry).map fun _ => first? tok past
  leads : ∀ id, first? tok past = some id → (remaining tok past).head? = some id
  /-- When it has gone, there is none ever after. -/
  gone : joined tok past ≠ [] → first? tok past = none → ∀ m', Run unedited m m' →
    ∀ p', m'.session.world.live tok = .ok p' → ∀ t, m'.session.world.initialInstance t tok =
      (m'.session.world.mayTake t .registry).map fun _ => none

/-- What the registry says of a live process is told to every thread that may take its lock. -/
theorem readRegistry_eq {α : Type} {w : World} {p : Process} (h : w.live tok = .ok p) (t : ThreadId)
    (f : Registry → α) : w.readRegistry t tok f = (w.mayTake t .registry).map fun _ => f p.registry := by
  unfold readRegistry
  rw [h]
  rfl

/-- The initial instance is the first one that ever joined, unless it was destroyed. -/
theorem initialInstance_eq (hm : History unedited past m) {p : Process}
    (hp : m.session.world.live tok = .ok p) (t : ThreadId) : m.session.world.initialInstance t tok =
      (m.session.world.mayTake t .registry).map fun _ => first? tok past := by
  unfold initialInstance
  rw [readRegistry_eq hp, (enrolled_of_history hm).registry tok p hp, Registry.initialMember?_ofPast]
  rfl

/-- At every point of every run that changes no registry past every check, whatever hooks do: a process
that is not shut down lists its instances in the order of their registration, and its initial instance is
the first one that was ever registered, as long as it was not destroyed, and none from then on; each
instance that was spawned records an instance of the same process as its parent that was registered
before; and no instance is among its own ancestors. -/
theorem instances_in_order (hm : History unedited past m) :
    (∀ tok p, m.session.world.live tok = .ok p → Enumerates past m tok) ∧
    (∀ id i, m.session.world.instances.get? id = some i → Born past id i) ∧
    ∀ id, ¬ Relation.TransGen m.session.world.ParentOf id id := by
  have henrolled := enrolled_of_history hm
  have hborn := born_of_history hm
  refine ⟨fun tok p hp => ?_, hborn, fun id hloop => ?_⟩
  · refine {
      ascending := henrolled.ascending tok
      instances := fun t => ?_
      initial := initialInstance_eq hm hp
      leads := fun _ => Registry.head?_members_ofPast
      gone := fun hsome hnone m' hrun p' hp' t => ?_ }
    · unfold instanceIds
      rw [readRegistry_eq hp, henrolled.registry tok p hp]
      rfl
    · obtain ⟨later, hm'⟩ := hm.goesOn hrun
      rw [initialInstance_eq hm' hp', first?_of_gone hsome hnone]
  · -- identities go up from a parent to its children
    have hup : ∀ a b, m.session.world.ParentOf a b → a.number < b.number := by
      rintro parent child ⟨i, hi, hparent⟩
      obtain ⟨_, _, _, _, hbears⟩ := hborn child i hi
      exact (hbears.parent parent hparent).2
    exact Nat.lt_irrefl _ (Relation.TransGen.trans_induction_on
      (motive := fun {a b} _ => a.number < b.number) hloop (fun h => hup _ _ h)
      fun _ _ h h' => Nat.lt_trans h h')

/-- A program that spawns an instance from the initial one and destroys this. A hook spawns another one
meanwhile. An instance of a second process comes between. -/
def bereaved : Machine :=
  start default default 0 [
    .call none (.start "p" none),
    .call none (.start "q" none),
    .call none (.process "p" (.create (some "i"))),
    .call none (.process "q" (.create (some "x"))),
    .call none (.process "p" (.spawn "i" (some "j"))),
    .register none ⟨some "p", .destroyed, none, "d", 1⟩ [.call none (.process "p" (.spawn "j" (some "k")))],
    .call none (.process "p" (.destroy "i"))]

/-- The process lists the instances that are left, and has no initial one any more. -/
theorem listed_when_bereaved :
    (bereaved.run 15).session.world.instanceIds .main ⟨1⟩ = .ok [⟨3⟩, ⟨4⟩] ∧
    (bereaved.run 15).session.world.initialInstance .main ⟨1⟩ = .ok none ∧
    (bereaved.run 15).session.world.ParentOf ⟨3⟩ ⟨4⟩ ∧
    ¬ Relation.TransGen (bereaved.run 15).session.world.ParentOf ⟨4⟩ ⟨4⟩ ∧
    ∀ m', Run unedited (bereaved.run 15) m' → ∀ p', m'.session.world.live ⟨1⟩ = .ok p' →
      ∀ t, m'.session.world.initialInstance t ⟨1⟩ =
        (m'.session.world.mayTake t .registry).map fun _ => none := by
  have hm : History unedited (trail 15 bereaved []) (bereaved.run 15) := .of_run (by decide +kernel)
  have hlive : ((bereaved.run 15).session.world.live ⟨1⟩).toOption.isSome = true := by decide +kernel
  have hmay : (bereaved.run 15).session.world.mayTake .main .registry = .ok () := by decide +kernel
  have hjoined : joined ⟨1⟩ (trail 15 bereaved []) = [⟨1⟩, ⟨3⟩, ⟨4⟩] := by decide +kernel
  have hdestroyed : destroyed ⟨1⟩ (trail 15 bereaved []) = [⟨1⟩] := by decide +kernel
  have hparent : ((bereaved.run 15).session.world.instances.get? ⟨4⟩).map (·.parent?) =
      some (some ⟨3⟩) := by decide +kernel
  obtain ⟨p, hp⟩ := Option.isSome_iff_exists.1 hlive
  obtain ⟨henumerates, -, hloops⟩ := instances_in_order hm
  have hprocess := henumerates ⟨1⟩ p (toOption_eq_some.1 hp)
  -- of the three that joined, the first one is destroyed
  have hremaining : remaining ⟨1⟩ (trail 15 bereaved []) = [⟨3⟩, ⟨4⟩] := by
    unfold remaining
    rw [hjoined, hdestroyed]
    decide
  have hfirst : first? ⟨1⟩ (trail 15 bereaved []) = none := by
    unfold first?
    rw [hjoined, hdestroyed]
    decide
  refine ⟨?_, ?_, ?_, hloops ⟨4⟩, hprocess.gone (by rw [hjoined]; exact List.cons_ne_nil _ _) hfirst⟩
  · rw [hprocess.instances, hmay, hremaining]
    rfl
  · rw [hprocess.initial, hmay, hfirst]
    rfl
  · obtain ⟨i, hi, hparent⟩ := Option.map_eq_some_iff.1 hparent
    exact ⟨i, hi, hparent⟩

end Machine

end TieredState
