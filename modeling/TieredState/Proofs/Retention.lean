import TieredState.Proofs.Episodes
import TieredState.Proofs.SlotTurns
import TieredState.Proofs.Trace

/-!
# What a binding finds

A new binding starts with fresh variables, but for the locale, which is persistent: it is the one that
the thread had when its last binding to the same instance under the same process ended by a release or
a rebinding. Meanwhile the variables wait in the slot of the process, where other bindings, failed
operations, other threads and the teardown of other instances leave them alone.

* `lastLocale` — the locale that the past of a run leaves for a binding.
* `retains_of_history` — at every point of every run, what waits in a slot has this locale.
* `contents_after_bind` — so a bind that succeeds finds the old storage, or a new one with this locale.
-/

namespace TieredState.Machine

open World Thread Session

variable {allowed : Machine → Bool} {m : Machine} {past : List Machine} {t : ThreadId} {tok : Token}
  {id : InstanceId} {h : Handle}

/-! ## The past of a binding -/

/-- The binding of the thread that the next step ends by binding it or releasing it. -/
def ended? (m : Machine) (t : ThreadId) (tok : Token) : Option Binding :=
  if m.rebinds t tok then
    (m.session.world.thread t).lost? (m.act.session.world.thread t) tok
  else none

/-- The locale that the thread had when its last binding to the instance under the process was ended
by a bind or a release. There is none if it never had one, or if it has not set it. The machines are
those at which steps were taken, the latest first. -/
def lastLocale (t : ThreadId) (tok : Token) (id : InstanceId) : List Machine → Option String
  | [] => none
  | m :: past =>
    if m.ends t then none
    else
      match m.ended? t tok with
      | some b =>
        if b.target = id then ((m.session.world.thread t).varsOf b).locale? else lastLocale t tok id past
      | none => lastLocale t tok id past

/-- A thread that ends leaves no locale. -/
theorem lastLocale_of_ends (h : m.ends t = true) : lastLocale t tok id (m :: past) = none := by
  unfold lastLocale
  rw [if_pos h]

/-- A binding that ends leaves its locale. -/
theorem lastLocale_of_ended {b : Binding} (h : m.ends t = false) (hb : m.ended? t tok = some b)
    (htarget : b.target = id) :
    lastLocale t tok id (m :: past) = ((m.session.world.thread t).varsOf b).locale? := by
  unfold lastLocale
  rw [if_neg (Bool.eq_false_iff.1 h), hb]
  exact if_pos htarget

/-- A step that ends no binding to the instance leaves its locale as it was. -/
theorem lastLocale_of_not_ended (h : m.ends t = false)
    (hb : ∀ b, m.ended? t tok = some b → b.target ≠ id) :
    lastLocale t tok id (m :: past) = lastLocale t tok id past := by
  conv_lhs => unfold lastLocale
  rw [if_neg (Bool.eq_false_iff.1 h)]
  cases hended : m.ended? t tok with
  | none => rfl
  | some b => exact if_neg (hb b hended)

/-! ## Steps -/

/-- A binding that ends was there. -/
theorem binding?_of_ended {b : Binding} (hb : m.ended? t tok = some b) :
    (m.session.world.thread t).binding? tok = some b := by
  unfold ended? at hb
  split at hb
  · exact (lost?_eq_some.1 hb).1
  · cases hb

/-- A step of any kind puts into a slot at most the variables of the binding that it ends. -/
theorem recalls_step (ht : m.ends t = false) (tok : Token) :
    Recalls m.session.world m.step.session.world (m.session.world.thread t)
      (m.step.session.world.thread t) tok (m.ended? t tok) := by
  have hact : Recalls m.session.world m.act.session.world (m.session.world.thread t)
      (m.act.session.world.thread t) tok (m.ended? t tok) := by
    unfold ended?
    rcases turn_slots (act_turn m) ht tok with hslot | ⟨hnot, hleaves⟩ | ⟨hrebinds, hrecalls⟩
    · -- nothing has happened to the slot, whatever the step is
      have hlost : (m.session.world.thread t).lost? (m.act.session.world.thread t) tok = none :=
        lost?_of_eq (binding?_congr hslot)
      rw [hlost, ite_self]
      exact .of_leaves (.of_slot hslot)
    · rw [hnot, if_neg Bool.false_ne_true]
      exact .of_leaves hleaves
    · rw [hrebinds, if_pos rfl]
      exact hrecalls
  obtain ⟨hlive, hproc, -, -⟩ := sweep_sub m.act.session m.actor m.act.heldTokens m.act.heldIds
  refine hact.trans (leaves_sweep _ _ _ _ _ _) (fun hrel => ?_) hlive
  obtain ⟨p, hp, hreleased⟩ := isReleased_iff.1 hrel
  exact isReleased_iff.2 ⟨p, hproc tok p hp, hreleased⟩

/-- Of a thread that is ended nothing is left. -/
theorem slots_of_ends (ht : m.ends t = true) : (m.step.session.world.thread t).slots.get? tok = none := by
  obtain ⟨ctx, name, hcall, rfl⟩ := ends_iff.1 ht
  obtain ⟨job, hscene⟩ := act_of_nextCall? hcall nofun
  have hworld : m.act.session.world = (m.opening ctx).world.withoutThread (.worker name) :=
    congrArg (fun sc => sc.session.world) hscene
  have hthread : m.act.session.world.thread (.worker name) = {} := by
    rw [hworld, thread_withoutThread, if_pos rfl]
  have hsweep : m.step.session.world.thread (.worker name) = _ := thread_sweep _ _ _ _ _
  rw [hsweep]
  split
  · next heq =>
    rw [← heq, hthread, slots_dropSlots]
    split <;> rfl
  · rw [hthread]
    rfl

/-! ## Runs -/

/-- What waits in the slot of a process for a binding to an instance. While the thread is bound to the
instance nothing waits for it; when it is not, the locale that waits is the one that its past leaves.
For what was not drawn yet nothing waits. -/
structure Retains (w : World) (past : List Machine) (t : ThreadId) (tok : Token) (id : InstanceId) :
    Prop where
  bound : ∀ b, (w.thread t).binding? tok = some b →
    tok.number < w.nextToken ∧ b.target.number < w.nextInstance
  waits : ∀ v, (w.thread t).retired? tok id = some v →
    tok.number < w.nextToken ∧ id.number < w.nextInstance
  recent : lastLocale t tok id past ≠ none → tok.number < w.nextToken ∧ id.number < w.nextInstance
  recalls : w.isReleased tok = false → w.isLive id = true →
    (∀ b, (w.thread t).binding? tok = some b → b.target ≠ id) →
    ((w.thread t).retired? tok id).bind (·.locale?) = lastLocale t tok id past

/-- A slot that is gone leaves nothing behind. -/
theorem retains_of_ends (ht : m.ends t = true) :
    Retains m.step.session.world (m :: past) t tok id := by
  have hslot : (m.step.session.world.thread t).slots.get? tok = none := slots_of_ends ht
  have hnone : lastLocale t tok id (m :: past) = none := lastLocale_of_ends ht
  have hretired : (m.step.session.world.thread t).retired? tok id = none := by
    unfold retired?
    rw [hslot]
    rfl
  refine ⟨fun b hb => ?_, fun v hv => ?_, fun hrecent => absurd hnone hrecent, fun _ _ _ => ?_⟩
  · unfold binding? at hb
    rw [hslot] at hb
    cases hb
  · rw [hretired] at hv
    cases hv
  · rw [hretired, hnone]
    rfl

/-- A process whose bindings are not void and a live instance have one of their identities from this
step, unless they were so before it. -/
theorem not_drawn_of_new (hages : Ages m.session.world m.step.session.world)
    (hrel : m.step.session.world.isReleased tok = false)
    (hlive : m.step.session.world.isLive id = true)
    (hnew : ¬ (m.session.world.isReleased tok = false ∧ m.session.world.isLive id = true)) :
    ¬ (tok.number < m.session.world.nextToken ∧ id.number < m.session.world.nextInstance) := by
  rintro ⟨htoken, hinst⟩
  refine hnew ⟨?_, ?_⟩
  · obtain ⟨p', hp', hreleased'⟩ := isReleased_iff.1 hrel
    rcases hages.processes tok p' hp' with ⟨p, hp, -, hvoid, -⟩ | ⟨hle, -⟩
    · refine isReleased_iff.2 ⟨p, hp, Bool.eq_false_iff.2 fun hreleased => ?_⟩
      rw [hvoid hreleased] at hreleased'
      cases hreleased'
    · omega
  · rcases hages.live id hlive with hlive' | ⟨hle, -⟩
    · exact hlive'
    · omega

/-- What was retained is so after one more step. -/
theorem retains_step (hd : m.Dated) (hr : Retains m.session.world past t tok id) :
    Retains m.step.session.world (m :: past) t tok id := by
  cases ht : m.ends t with
  | true => exact retains_of_ends ht
  | false =>
    have hstep := recalls_step ht tok
    obtain ⟨hages, -⟩ := ages_step hd
    have hinst := hages.nextInstance
    have htoken := hages.nextToken
    have hlater : tok.number < m.session.world.nextToken ∧ id.number < m.session.world.nextInstance →
        tok.number < m.step.session.world.nextToken ∧
          id.number < m.step.session.world.nextInstance := by omega
    -- a binding that begins is to a live instance, and one that ends leaves its variables
    refine ⟨fun b hb => ?_, fun v hv => ?_, fun hrecent => ?_, fun hrel hlive hnot => ?_⟩
    · rcases hstep.bindings b hb with hold | ⟨hlive, hproc⟩
      · obtain ⟨hdrawn, hdrawn'⟩ := hr.bound b hold
        omega
      · obtain ⟨p, hp⟩ := Option.isSome_iff_exists.1 hproc
        have hdrawn := (hd.processes tok p hp).1
        have hdrawn' := hd.live b.target hlive
        omega
    · rcases hstep.retired id v hv with hold | ⟨b, hb, rfl⟩
      · exact hlater (hr.waits v hold)
      · exact hlater (hr.bound b (binding?_of_ended hb))
    · by_cases hended : ∃ b, m.ended? t tok = some b ∧ b.target = id
      · obtain ⟨b, hb, rfl⟩ := hended
        exact hlater (hr.bound b (binding?_of_ended hb))
      · rw [lastLocale_of_not_ended ht fun b hb htarget => hended ⟨b, hb, htarget⟩] at hrecent
        exact hlater (hr.recent hrecent)
    · rcases hstep.kept id hrel hlive hnot with ⟨b, hb, htarget, hvars⟩ | ⟨hnone, hnot', hsame⟩
      · rw [lastLocale_of_ended ht hb htarget, hvars]
        rfl
      · rw [lastLocale_of_not_ended ht hnone, hsame]
        by_cases hold : m.session.world.isReleased tok = false ∧ m.session.world.isLive id = true
        · exact hr.recalls hold.1 hold.2 hnot'
        · -- the process or the instance is new, so nothing waits for it yet
          have hnew := not_drawn_of_new hages hrel hlive hold
          have hretired : (m.session.world.thread t).retired? tok id = none :=
            Option.eq_none_iff_forall_ne_some.2 fun v hv => hnew (hr.waits v hv)
          have hrecent : lastLocale t tok id past = none := by
            by_contra hsome
            exact hnew (hr.recent hsome)
          rw [hretired, hrecent]
          rfl

/-- At every point of every run, whatever its steps are, the locale that waits in a slot is the one that
the past leaves. -/
theorem retains_of_history (hm : History allowed past m) (t : ThreadId) (tok : Token)
    (id : InstanceId) : Retains m.session.world past t tok id := by
  obtain ⟨files, environment, fieldCount, script, htrace⟩ := hm
  have hstart : (start files environment fieldCount script).Dated := World.Dated.empty
  induction htrace with
  | start => exact ⟨nofun, nofun, fun hrecent => absurd rfl hrecent, fun _ _ _ => rfl⟩
  | step htrace _ ih => exact retains_step (dated_of_run hstart htrace.run) ih
  | redirect _ steps ih =>
    rw [world_redirect]
    exact ih

/-! ## Binding -/

/-- A bind that succeeds keeps the binding, or draws a storage for a new one. The slots are pruned. -/
theorem contents_of_rebound {w : World} {th th' : Thread} (hlive : w.isLive id = true)
    (h₀ : Rebound w th tok id (.ok h) th') :
    h.target = id ∧
    (∀ b, th.binding? tok = some b → b.target = id → h = b ∧ th' = th) ∧
    ((∀ b, th.binding? tok = some b → b.target ≠ id) →
      h.storage = ⟨th.nextStorage⟩ ∧ th'.storages.get? h.storage =
        some { vars := { locale? := (th.retired? tok id).bind (·.locale?) }, borrowed := false }) := by
  generalize hr : (Except.ok h : Except AccessError Handle) = r at h₀
  -- a binding to the instance is kept as it is, and otherwise a storage is drawn
  cases h₀ with
  | @same b hb htarget =>
    obtain rfl := Except.ok.inj hr
    refine ⟨htarget, fun c hc _ => ?_, fun hnot => absurd htarget (hnot h hb)⟩
    exact ⟨Option.some.inj (hb.symm.trans hc), rfl⟩
  | refused hb e => cases hr
  | fresh hnone =>
    obtain rfl := Except.ok.inj hr
    refine ⟨rfl, fun c hc _ => ?_, fun _ => ⟨rfl, ?_⟩⟩
    · rw [hnone] at hc
      cases hc
    · refine (storages_startBinding _ _ _ _ _ _).trans ((if_pos rfl).trans ?_)
      rw [get?_pruneRetired_of_live hlive, retired?_getD]
  | @moved b hb htarget hfree th₁ hth₁ =>
    obtain rfl := Except.ok.inj hr
    subst hth₁
    refine ⟨rfl, fun c hc htarget' => ?_, fun _ => ⟨rfl, ?_⟩⟩
    · obtain rfl := Option.some.inj (hb.symm.trans hc)
      exact absurd htarget' htarget
    · refine (storages_startBinding _ _ _ _ _ _).trans ((if_pos rfl).trans ?_)
      rw [get?_pruneRetired_of_live hlive, get?_ended, if_neg fun heq => htarget heq.2.symm,
        retired?_getD]

/-- A bind that succeeds, at any point of a run of steps of any kind. A thread that is bound to the
instance already goes on with the same storage, whose contents are unchanged, and the handle is to it.
Otherwise the handle is to a new storage. In it every variable is as declared, but for the locale,
which is the one that the thread had when its last binding to the instance under the process was ended
by a release or a rebinding, if it had one. -/
theorem contents_after_bind (hm : History allowed past m) (hbinds : m.BindsTo tok id h t) :
    m.step.Lasts t tok h ∧ h.target = id ∧
    (∀ b, (m.session.world.thread t).binding? tok = some b → b.target = id → h = b ∧
      ∃ st, (m.session.world.thread t).storages.get? h.storage = some st ∧
        (m.step.session.world.thread t).storages.get? h.storage = some st) ∧
    ((∀ b, (m.session.world.thread t).binding? tok = some b → b.target ≠ id) →
      (m.session.world.thread t).storages.get? h.storage = none ∧
      (m.step.session.world.thread t).storages.get? h.storage =
        some { vars := { locale? := lastLocale t tok id past }, borrowed := false }) := by
  have hkept := kept_of_reachable hm.reachable
  have hsound := threadsSound_of_reachable hm.reachable t
  have hlasts := lasts_of_obtains hkept (.bind hbinds)
  obtain ⟨w, hinst, hproc, hthread, ⟨p, hp⟩, hlive, hok, hworld⟩ := step_of_bindsTo hkept hbinds
  -- the process is not shut down, so its slot is not pruned
  have hrel : m.session.world.isReleased tok = false := by
    obtain ⟨hget, hphase⟩ := live_ok.1 hp
    refine (dated_of_reachable hm.reachable).not_released (p := p) (live_ok.2 ⟨?_, hphase⟩)
    rw [← hproc]
    exact hget
  have hslot : (w.pruneSlots (m.session.world.thread t)).slots.get? tok =
      (m.session.world.thread t).slots.get? tok := by
    have hrel' : w.isReleased tok = false := by
      unfold isReleased
      rw [hproc]
      exact hrel
    rw [slots_pruneSlots, hrel', if_neg Bool.false_ne_true]
  have hbinding := binding?_congr hslot
  obtain ⟨th', hrebound, hw⟩ := bindThread_cases w t tok id
  have hth' : m.step.session.world.thread t = th' := by
    rw [hworld, hw, thread_setThread_self]
  rw [hthread, hok] at hrebound
  obtain ⟨htarget, hsame, hnew⟩ := contents_of_rebound hlive hrebound
  refine ⟨hlasts, htarget, fun b hb hbtarget => ?_, fun hnot => ?_⟩
  · obtain ⟨rfl, rfl⟩ := hsame b (hbinding.trans hb) hbtarget
    obtain ⟨u, hu⟩ := Option.isSome_iff_exists.1 (hsound.stored tok h hb)
    obtain ⟨st, hst, -⟩ := Option.map_eq_some_iff.1 hu
    refine ⟨rfl, st, hst, ?_⟩
    rw [hth', storages_pruneSlots (hbinding.trans hb), hst]
  · obtain ⟨hstorage, hcontents⟩ := hnew fun b hb => hnot b (hbinding.symm.trans hb)
    have hlive' : m.session.world.isLive id = true := by
      unfold isLive at hlive ⊢
      rw [← hinst]
      exact hlive
    constructor
    · -- a storage that is not drawn yet is not there
      refine Option.eq_none_iff_forall_ne_some.2 fun st hst => ?_
      have hdrawn := hsound.drawn h.storage (by rw [usage, hst]; rfl)
      rw [hstorage] at hdrawn
      exact Nat.lt_irrefl _ hdrawn
    · rw [hth', hcontents, retired?_congr hslot,
        (retains_of_history hm t tok id).recalls hrel hlive' hnot]

/-- A program that sets the locale of a binding, and leaves its instance and comes back to it. -/
def boundBack : Machine :=
  start default default 0 [
    .call none (.start "p" none),
    .call none (.process "p" (.create (some "i"))),
    .call none (.process "p" (.create (some "j"))),
    .call none (.process "p" (.bind "i" none)),
    .closure none (.ofThread "p") [.call none (.focus .bump)],
    .call none (.process "p" (.bind "j" none)),
    .call none (.process "p" (.bind "i" none))]

/-- The locale is there again, and nothing else. -/
theorem locale_when_bound_back :
    ((boundBack.run 10).step.session.world.thread .main).storages.get? ⟨2⟩ =
      some { vars := { locale? := some "l" }, borrowed := false } := by
  have hm : History (fun _ => true) (trail 10 boundBack []) (boundBack.run 10) :=
    .of_run (by decide +kernel)
  have hcall : (boundBack.run 10).nextCall? =
      some ({ thread := .main }, .process "p" (.bind "i" none)) := by decide +kernel
  have hbinds : (boundBack.run 10).BindsTo ⟨1⟩ ⟨1⟩ ⟨⟨1⟩, ⟨2⟩⟩ .main :=
    .intro hcall (by rfl) (by rfl) (by rfl)
  have hother : ((boundBack.run 10).session.world.thread .main).binding? ⟨1⟩ = some ⟨⟨2⟩, ⟨1⟩⟩ := by
    decide +kernel
  have hlocale : lastLocale .main ⟨1⟩ ⟨1⟩ (trail 10 boundBack []) = some "l" := by
    decide +kernel
  obtain ⟨-, -, -, hnew⟩ := contents_after_bind hm hbinds
  obtain ⟨-, hcontents⟩ := hnew fun b hb => by
    rw [← Option.some.inj (hother.symm.trans hb)]
    decide
  rw [hcontents, hlocale]

end TieredState.Machine
