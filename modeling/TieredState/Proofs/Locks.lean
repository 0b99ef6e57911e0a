import TieredState.Proofs.Steady

/-!
# Locks while hooks run

An operation that runs hooks has taken the registry's lock before and given it back, so when it began
its thread held nothing of that rank or above. Its hooks may take locks, and closures inside them may
end threads or be unwound, but what is taken above an operation on the stack is given back above it.
So whenever an operation goes on, its thread holds no more than when it began: `Eased`.

* `eased_of_run` — this is so at every point of every run, whatever its steps are.
* `finish_cases` — so an operation that goes on never fails to list hooks.
-/

namespace TieredState

/-- What each thread holds. -/
abbrev Holds := ThreadId → Held

namespace Held

/-- What was taken last is given back. -/
theorem release_append (held : Held) (l : Lock) : (held ++ [l]).release l = held := by
  unfold release
  rw [List.reverse_append, List.reverse_singleton, List.singleton_append, List.erase_cons_head,
    List.reverse_reverse]

/-- Whoever holds less is left with less when both give a lock back. -/
theorem release_sublist {held held' : Held} (h : held'.Sublist held) (l : Lock) :
    (held'.release l).Sublist (held.release l) := by
  unfold release
  exact ((h.reverse).erase l).reverse

/-- One lock is given back, the last of its kind. -/
theorem release_perm (held : Held) (l : Lock) : (held.release l).Perm (held.erase l) := by
  unfold release
  exact (List.reverse_perm _).trans ((List.reverse_perm held).erase l)

/-- A search that keeps the higher of two locks finds one that ranks as high as any. -/
theorem foldl_highest {f : Option Lock → Lock → Option Lock} {b : Lock}
    (hf : ∀ best x, ∃ r, f best x = some r ∧ (r = x ∨ best = some r) ∧ x.rank ≤ r.rank ∧
      ∀ y, best = some y → y.rank ≤ r.rank)
    {ls : List Lock} {best : Option Lock} (h : ls.foldl f best = some b) :
    (b ∈ ls ∨ best = some b) ∧ (∀ x ∈ ls, x.rank ≤ b.rank) ∧
      ∀ y, best = some y → y.rank ≤ b.rank := by
  induction ls generalizing best with
  | nil =>
    have hbest : best = some b := h
    refine ⟨.inr hbest, nofun, fun y hy => ?_⟩
    rw [hbest] at hy
    exact Nat.le_of_eq (by rw [Option.some.inj hy])
  | cons x ls ih =>
    obtain ⟨r, hr, hfrom, hx, hbest⟩ := hf best x
    rw [List.foldl_cons, hr] at h
    obtain ⟨hmem, hrest, hrank⟩ := ih h
    have hrb : r.rank ≤ b.rank := hrank r rfl
    refine ⟨?_, List.forall_mem_cons.2 ⟨Nat.le_trans hx hrb, hrest⟩,
      fun y hy => Nat.le_trans (hbest y hy) hrb⟩
    rcases hmem with hmem | hmem
    · exact .inl (List.mem_cons_of_mem _ hmem)
    · obtain rfl := Option.some.inj hmem
      rcases hfrom with rfl | hfrom
      · exact .inl List.mem_cons_self
      · exact .inr hfrom

/-- What stands in the way of a lock ranks no lower than it, and no held lock ranks higher. -/
theorem blocking?_eq_some {held : Held} {l b : Lock} (h : held.blocking? l = some b) :
    b ∈ held ∧ l.rank ≤ b.rank ∧ ∀ x ∈ held, x.rank ≤ b.rank := by
  unfold blocking? at h
  -- the highest of those that stand in the way is kept while the list is gone through
  have hhighest := foldl_highest ?_ h
  · obtain ⟨hmem, hall, -⟩ := hhighest
    rcases hmem with hmem | hmem
    · obtain ⟨hb, hrank⟩ := List.mem_filter.1 hmem
      have hle : l.rank ≤ b.rank := of_decide_eq_true hrank
      refine ⟨hb, hle, fun x hx => ?_⟩
      by_cases hxl : l.rank ≤ x.rank
      · exact hall x (List.mem_filter.2 ⟨hx, decide_eq_true hxl⟩)
      · omega
    · cases hmem
  · intro best x
    cases best with
    | none => exact ⟨x, rfl, .inl rfl, Nat.le_refl _, nofun⟩
    | some y =>
      dsimp only
      split
      · next hle =>
        refine ⟨x, rfl, .inl rfl, Nat.le_refl _, fun z hz => ?_⟩
        rwa [← Option.some.inj hz]
      · next hlt =>
        refine ⟨y, rfl, .inr rfl, by omega, fun z hz => ?_⟩
        exact Nat.le_of_eq (by rw [Option.some.inj hz])

/-- A lock is refused for the sake of one that stands in its way. -/
theorem acquire_of_le {held : Held} {l h : Lock} (hmem : h ∈ held) (hle : l.rank ≤ h.rank) :
    ∃ b, held.acquire l = .error b ∧ b ∈ held ∧ l.rank ≤ b.rank ∧ ∀ x ∈ held, x.rank ≤ b.rank := by
  unfold acquire
  cases hb : held.blocking? l with
  | some b => exact ⟨b, rfl, blocking?_eq_some hb⟩
  | none =>
    have hlt := blocking?_eq_none.1 hb h hmem
    omega

end Held

namespace World

variable {w w' w'' : World} {t : ThreadId} {tok : Token}

def holds (w : World) : Holds := fun t => (w.thread t).held

/-! ## Changes by which no lock is taken or given back -/

theorem holds_congr (h : ∀ t, w'.thread t = w.thread t) : w'.holds = w.holds := by
  funext t
  unfold holds
  rw [h]

theorem holds_setThread (w : World) (t t' : ThreadId) (th : Thread) :
    (w.setThread t th).holds t' = if t' = t then th.held else w.holds t' := by
  unfold holds
  rw [thread_setThread]
  split <;> rfl

/-- What a thread keeps changes, but for the locks that it holds. -/
theorem holds_setThread_of_held {th : Thread} (h : th.held = w.holds t) :
    (w.setThread t th).holds = w.holds := by
  funext t'
  rw [holds_setThread]
  split
  · next heq => rw [heq, h]
  · rfl

/-- To bind a thread does not change what is held. -/
theorem holds_bindThread (w : World) (t : ThreadId) (tok : Token) (id : InstanceId) :
    (w.bindThread t tok id).2.holds = w.holds := by
  unfold World.bindThread
  dsimp only
  split
  · exact holds_setThread_of_held rfl
  · split
    · exact holds_setThread_of_held rfl
    · split
      · exact holds_setThread_of_held rfl
      · next hend =>
        obtain ⟨-, rfl⟩ := endBinding_ok hend
        exact holds_setThread_of_held rfl

/-- A call to bind does not change what is held, whether it succeeds or not. -/
theorem holds_bind (w : World) (t : ThreadId) (tok : Token) (id : InstanceId) :
    (w.bind t tok id).2.holds = w.holds := by
  unfold World.bind
  split
  · rfl
  · split
    · rfl
    · split
      · rfl
      · exact holds_bindThread w t tok id

/-- To end a binding does not change what is held. -/
theorem holds_unbindThread {id? : Option InstanceId} (h : w.unbindThread t tok = .ok (id?, w')) :
    w'.holds = w.holds := by
  unfold World.unbindThread at h
  dsimp only at h
  split at h
  · obtain ⟨-, rfl⟩ := Prod.mk.inj (Except.ok.inj h)
    rfl
  · split at h
    · obtain ⟨-, rfl⟩ := Prod.mk.inj (Except.ok.inj h)
      rfl
    · obtain ⟨⟨slot', th'⟩, hend, h⟩ := bind_eq_ok.1 h
      obtain ⟨-, rfl⟩ := endBinding_ok hend
      obtain ⟨-, rfl⟩ := Prod.mk.inj (Except.ok.inj h)
      exact holds_setThread_of_held rfl

theorem holds_release {id? : Option InstanceId} (h : w.release t tok = .ok (id?, w')) :
    w'.holds = w.holds := by
  obtain ⟨p, -, hu⟩ := bind_eq_ok.1 h
  exact holds_unbindThread hu

theorem holds_tearDown (w : World) (t : ThreadId) (tok : Token) (id : InstanceId) :
    (w.tearDown t tok id).holds = w.holds := by
  have hmarked : (w.marked id).holds = w.holds := rfl
  unfold World.tearDown
  dsimp only
  split
  · split
    · next hu => exact (holds_unbindThread hu).trans hmarked
    · exact hmarked
  · exact hmarked

theorem holds_releaseKey (w : World) (t : ThreadId) (tok : Token) :
    (w.releaseKey t tok).holds = w.holds :=
  holds_setThread_of_held (w := w.modifyProcess tok fun p => { p with released := true }) rfl

theorem holds_borrow {h : Handle} (hb : w.borrow t h = .ok w') : w'.holds = w.holds := by
  obtain ⟨st, -, -, -, rfl⟩ := borrowed_of_borrow hb
  exact holds_setThread_of_held rfl

theorem holds_endBorrow (w : World) (t : ThreadId) (s : StorageId) :
    (w.endBorrow t s).holds = w.holds :=
  holds_setThread_of_held rfl

theorem holds_withoutThread (w : World) (t t' : ThreadId) :
    (w.withoutThread t).holds t' = if t' = t then [] else w.holds t' := by
  unfold holds
  rw [thread_withoutThread]
  split <;> rfl

/-- A lock that is taken comes behind those that are held, and ranks above them. -/
theorem holds_take {l : Lock} (h : w.take t l = .ok w') :
    (∀ x ∈ w.holds t, x.rank < l.rank) ∧
      ∀ t', w'.holds t' = if t' = t then w.holds t ++ [l] else w.holds t' := by
  obtain ⟨held, hacquire, rfl⟩ := take_ok h
  obtain ⟨hbelow, rfl⟩ := Held.acquire_ok.1 hacquire
  exact ⟨hbelow, fun t' => holds_setThread w t t' _⟩

/-- A thread that holds a lock which ranks no lower is refused, for the sake of the highest ranked that
it holds. -/
theorem refused_of_le {l x : Lock} (hmem : x ∈ w.holds t) (hle : l.rank ≤ x.rank) :
    ∃ top ∈ w.holds t, l.rank ≤ top.rank ∧ (∀ y ∈ w.holds t, y.rank ≤ top.rank) ∧
      w.take t l = .error (.lockOrder top l) ∧ w.mayTake t l = .error (.lockOrder top l) := by
  obtain ⟨top, hacquire, htop, hrank, hhighest⟩ := Held.acquire_of_le hmem hle
  have hthread : (w.thread t).held.acquire l = .error top := hacquire
  refine ⟨top, htop, hrank, hhighest, ?_, ?_⟩
  · unfold take
    rw [hthread]
  · unfold mayTake
    rw [hthread]

/-- A thread that holds lower ranked locks only is not refused. -/
theorem take_of_lt {l : Lock} (h : ∀ x ∈ w.holds t, x.rank < l.rank) : ∃ w', w.take t l = .ok w' := by
  have hacquire : (w.thread t).held.acquire l = .ok (w.holds t ++ [l]) := Held.acquire_ok.2 ⟨h, rfl⟩
  unfold take
  rw [hacquire]
  exact ⟨_, rfl⟩

/-- To give back a lock concerns the thread that held it only. -/
theorem holds_giveBack (w : World) (t t' : ThreadId) (l : Lock) :
    (w.giveBack t l).holds t' = if t' = t then (w.holds t).release l else w.holds t' :=
  holds_setThread w t t' _

/-! ## Changes by which no lock is taken -/

/-- No thread holds a lock that it did not hold. -/
def Eases (w w' : World) : Prop := ∀ t, (w'.holds t).Sublist (w.holds t)

namespace Eases

theorem of_eq (h : w'.holds = w.holds) : Eases w w' := by
  intro t
  rw [h]

theorem trans (h : Eases w w') (h' : Eases w' w'') : Eases w w'' := fun t => (h' t).trans (h t)

theorem withoutThread (w : World) (t : ThreadId) : Eases w (w.withoutThread t) := by
  intro t'
  rw [holds_withoutThread]
  split
  · exact List.nil_sublist _
  · exact .refl _

end Eases

end World

namespace Session

open World

variable {s s' : Session} {ctx : Context} {t : ThreadId} {tok : Token}

/-- Steady changes leave alone what threads hold. -/
theorem Steady.holds (h : s.Steady s') : s'.world.holds = s.world.holds := holds_congr h.threads

/-- A call that is done at once leaves the locks of every thread alone, unless it ends a thread. -/
theorem Touches.holds {c : Call} (h : s.Touches ctx c s') :
    s'.world.holds = s.world.holds ∨
      ∃ name, c = .endThread name ∧ s'.world.holds = (s.world.withoutThread (.worker name)).holds := by
  cases h with
  | steady hsteady => exact .inl hsteady.holds
  | vars f hfocus => exact .inl (holds_setThread_of_held rfl)
  | endThread hsteady => exact .inr ⟨_, rfl, hsteady.holds⟩
  | bind hproc hkeep hworld hsteady => exact .inl (hsteady.holds.trans (holds_bind _ _ _ _))
  | release hproc hrelease => exact .inl (holds_release hrelease)
  | shutdown hproc hbegin =>
    obtain ⟨p, -, -, rfl⟩ := beginShutdown_ok hbegin
    exact .inl (holds_releaseKey (s.world.modifyProcess _ _) _ _)

/-- What a call does at once makes no thread hold more. -/
theorem Touches.eases {c : Call} (h : s.Touches ctx c s') : Eases s.world s'.world := by
  rcases h.holds with heq | ⟨name, -, heq⟩
  · exact .of_eq heq
  · exact (Eases.withoutThread _ _).trans (.of_eq heq)

theorem holds_sweep (s : Session) (t : ThreadId) (tokens : List Token) (ids : List InstanceId) :
    (s.sweep t tokens ids).world.holds = s.world.holds := by
  have hdrop : ((s.lost tokens).foldl Thread.dropSlot (s.world.thread t)).held =
      (s.world.thread t).held :=
    List.foldlRecOn (motive := fun th : Thread => th.held = (s.world.thread t).held) _ _ rfl
      fun _ hth _ _ => hth
  funext t'
  unfold holds
  rw [thread_sweep]
  split
  · next heq => rw [heq, hdrop]
  · rfl

/-! ## Operations that go on -/

/-- The thread holds only locks below the registry's. -/
def Clear (held : Held) : Prop := ∀ l ∈ held, l.rank < Lock.registry.rank

/-- Whoever holds less is as clear. -/
theorem Clear.of_sublist {held held' : Held} (h : Clear held) (hsub : held'.Sublist held) :
    Clear held' :=
  fun l hl => h l (hsub.subset hl)

/-- A dispatch that has listed its hooks, and whose thread can list others. -/
def Able (holds : Holds) (d : Dispatch) : Prop := d.failure? = none ∧ Clear (holds d.thread)

/-- A thread that is clear can list the hooks of a destruction. -/
theorem beginTearDown_clear (h : Clear (s.world.holds t)) (tok : Token) (id : InstanceId)
    (task : Task) : s.beginTearDown t tok id task none =
      ⟨t, tok, id, s.world.listed tok .destroyed, task, none⟩ := by
  unfold beginTearDown
  rw [hooksFor_ok h]

/-- An operation that goes on is done and successful, or has listed the hooks for the next
instance. -/
theorem finish_cases {d : Dispatch} (h : Able s.world.holds d) :
    (∃ a s', s.finish d = .done (.ok a) s' ∧ s'.world.holds = s.world.holds) ∨
    ∃ id rest count, d.task = .shutdown (id :: rest) count ∧
      s.finish d = .running
        ⟨d.thread, d.process, id,
          (s.world.tearDown d.thread d.process d.target).listed d.process .destroyed,
          .shutdown rest count, none⟩
        (s.withWorld (s.world.tearDown d.thread d.process d.target)) := by
  obtain ⟨hfailure, hclear⟩ := h
  have htear := holds_tearDown s.world d.thread d.process d.target
  generalize hp : s.finish d = p
  cases finishes_of_finish hp with
  | create htask =>
    refine .inl ⟨_, _, rfl, ?_⟩
    rw [world_keepInstance]
  | destroy htask =>
    rw [hfailure]
    exact .inl ⟨_, _, rfl, htear⟩
  | shutdown htask =>
    rw [hfailure]
    exact .inl ⟨_, _, rfl, (holds_releaseKey _ _ _).trans htear⟩
  | @next id rest count htask =>
    -- tearing down takes no lock, so the hooks of the next instance can be listed
    have hclear' : Clear ((s.withWorld
        (s.world.tearDown d.thread d.process d.target)).world.holds d.thread) := by
      rw [world_withWorld, htear]
      exact hclear
    rw [hfailure, beginTearDown_clear hclear']
    exact .inr ⟨id, rest, count, htask, rfl⟩

end Session

/-! ## The stack -/

open World Session

/-- What threads hold when a body has given back what its closure took. -/
def relieved (holds : Holds) (b : Body) : Holds := fun t =>
  match b.owner with
  | .lock l => if t = b.context.thread then (holds t).release l else holds t
  | _ => holds t

/-- Whenever an operation on the stack goes on, its thread will hold only locks below the
registry's: what is taken above it is given back by then. -/
def Eased (holds : Holds) : List Frame → Prop
  | [] => True
  | .body b :: below => Eased (relieved holds b) below
  | .dispatch d _ :: below => Able holds d ∧ Eased holds below

/-- Holding less is as good. -/
theorem Eased.mono {holds holds' : Holds} {stack : List Frame} (h : Eased holds stack)
    (hsub : ∀ t, (holds' t).Sublist (holds t)) : Eased holds' stack := by
  induction stack generalizing holds holds' with
  | nil => trivial
  | cons f below ih =>
    cases f with
    | dispatch d job =>
      obtain ⟨⟨hfailure, hclear⟩, hbelow⟩ := h
      exact ⟨⟨hfailure, hclear.of_sublist (hsub _)⟩, ih hbelow hsub⟩
    | body b =>
      have hbelow : Eased (relieved holds b) below := h
      refine ih hbelow fun t => ?_
      unfold relieved
      cases b.owner with
      | lock l =>
        dsimp only
        split
        · exact Held.release_sublist (hsub t) l
        · exact hsub t
      | _ => exact hsub t

/-- An operation that could go on still can when threads are eased. -/
theorem Eased.of_eases {w w' : World} {stack : List Frame} (h : Eased w.holds stack)
    (hw : Eases w w') : Eased w'.holds stack := h.mono hw

/-- Steps, taken or not, do not matter. -/
theorem eased_shell {holds : Holds} {stack : List Frame} :
    Eased holds (stack.map Frame.shell) ↔ Eased holds stack := by
  induction stack generalizing holds with
  | nil => exact Iff.rfl
  | cons f below ih =>
    cases f with
    | body b =>
      show Eased (relieved holds b) (below.map Frame.shell) ↔ Eased (relieved holds b) below
      exact ih
    | dispatch d job => exact and_congr_right fun _ => ih

/-- When a closure ends, its thread is relieved of its lock. -/
theorem holds_undo (s : Session) (b : Body) :
    (s.undo b).world.holds = relieved s.world.holds b := by
  unfold undo relieved
  cases b.owner with
  | lock l =>
    funext t
    dsimp only
    rw [world_withWorld, holds_giveBack]
    split
    · next heq => rw [heq]
    · rfl
  | storage storage => exact holds_endBorrow s.world b.context.thread storage
  | _ => rfl

/-- Unwinding lets every operation go on that is left on the stack. -/
theorem eased_unwind {s : Session} {stack : List Frame} (h : Eased s.world.holds stack) :
    Eased (Machine.unwind s stack).1.world.holds (Machine.unwind s stack).2 := by
  refine Machine.unwind_induction (P := fun s fs => Eased s.world.holds fs) (fun s b below h => ?_)
    (fun s d job below h => h.2) h
  -- a body that is unwound gives back its lock as one that ends does
  have hgiven : Eased (relieved s.world.holds b) below := h
  rw [holds_undo]
  exact hgiven

/-- A closure that is opened has to be over before the operations below it go on. -/
theorem eased_entered {s s' : Session} {ctx : Context} {steps : List Step} {b : Body}
    {stack : List Frame} (h : Eased s.world.holds stack) (hent : s.Entered ctx steps b s')
    (job : Bool) : Eased s'.world.holds (.body { b with job } :: stack) := by
  cases hent with
  | @lock l w focus tokens ids htake =>
    obtain ⟨-, hholds⟩ := holds_take htake
    refine h.mono fun t => ?_
    -- the body has the lock that was taken last
    show List.Sublist (if t = ctx.thread then _ else _) _
    rw [world_withWorld, hholds]
    split
    · next heq =>
      rw [heq, Held.release_append]
    · exact .refl _
  | storage tokens hborrow => exact h.of_eases (.of_eq (holds_borrow hborrow))
  | attempt => exact h

/-- An operation that begins has listed its hooks, so its thread holds no lock in their way. -/
theorem clear_of_begins {s s' : Session} {t : ThreadId} {tok : Token} {d : Dispatch}
    (h : s.Begins t tok d s') : Able s.world.holds d := by
  cases h with
  | create as? henroll => exact ⟨rfl, mayTake_ok.1 (mayTake_of_enroll henroll).1⟩
  | destroy hwithdraw => exact ⟨rfl, mayTake_ok.1 (mayTake_of_withdraw hwithdraw)⟩
  | shutdown hbegin => exact ⟨rfl, mayTake_ok.1 (mayTake_of_beginShutdown hbegin)⟩

theorem holds_registerHook (s : Session) (ctx : Context) (r : HookRequest) (steps : List Step) :
    (s.registerHook ctx r steps).2.world.holds = s.world.holds := by
  rcases registerHook_cases s ctx r steps with heq | ⟨tok, p, -, hworld, -, -⟩
  · rw [heq]
  · rw [hworld]
    rfl

namespace Machine

variable {allowed : Machine → Bool} {m m' : Machine} {d : Dispatch}

/-- Every operation on the stack will be able to go on. -/
def Eased (m : Machine) : Prop := TieredState.Eased m.session.world.holds m.stack

/-- Whether operations can go on is told by the scene. -/
theorem eased_scene (m : Machine) :
    TieredState.Eased m.scene.session.world.holds m.scene.stack ↔ m.Eased := eased_shell

/-- The operation on top can go on now. -/
theorem able_of_eased {job : Bool} {below : List Frame} (h : m.Eased)
    (hstack : m.stack = .dispatch d job :: below) :
    Able m.session.world.holds d ∧ TieredState.Eased m.session.world.holds below := by
  unfold Eased at h
  rw [hstack] at h
  exact h

/-- A step lets every operation go on that is still under way. -/
theorem eased_act (h : m.Eased) : m.act.Eased := by
  have hopening : ∀ ctx, TieredState.Eased (m.opening ctx).world.holds m.stack :=
    fun ctx => h.of_eases (.of_eq (Steady.touch _ _).holds)
  rw [← eased_scene]
  have hturn := act_turn m
  generalize m.act.scene = sc at hturn
  -- only a closure that opens takes a lock, and after any other step threads hold what they held or
  -- less
  cases hturn with
  | idle => exact (eased_scene m).2 h
  | served hcall hdone hserved =>
    exact eased_shell.2 ((hopening _).of_eases (touches_served hserved).eases)
  | @begins ctx p c tok d s job hcall hproc _ hbegins =>
    have heases : Eases (m.opening ctx).world s.world := .of_eq (Steady.begins hbegins).holds
    obtain ⟨hfailure, hclear⟩ := clear_of_begins hbegins
    exact eased_shell.2
      ⟨⟨hfailure, hclear.of_sublist (heases _)⟩, (hopening _).of_eases heases⟩
  | refused hnext => exact eased_shell.2 (hopening _)
  | opens job hnext hent =>
    exact eased_shell.2 (eased_entered (hopening _) (entered_of_enter hent) job)
  | @registers ctx on? r steps hnext =>
    refine eased_shell.2 ?_
    show TieredState.Eased ((m.opening ctx).registerHook ctx r steps).2.world.holds m.stack
    rw [holds_registerHook]
    exact hopening ctx
  | fails hnext => exact eased_shell.2 (eased_unwind (hopening _))
  | @closes b below hstack =>
    refine eased_shell.2 ?_
    unfold Eased at h
    rw [hstack] at h
    show TieredState.Eased (m.session.undo b).world.holds below
    rw [holds_undo]
    exact h
  | skips hstack _ _ =>
    obtain ⟨hable, hbelow⟩ := able_of_eased h hstack
    exact eased_shell.2 ⟨hable, hbelow⟩
  | @calls d job below id rest c hstack _ _ =>
    refine eased_shell.2 ?_
    obtain ⟨hable, hbelow⟩ := able_of_eased h hstack
    unfold Callback.bodies
    split
    · exact ⟨hable, hbelow⟩
    · exact ⟨hable, hbelow⟩
  | @finishes d job below o s hstack hfin hdone =>
    obtain ⟨hable, hbelow⟩ := able_of_eased h hstack
    rcases finish_cases hable with ⟨a, s', hfinish, hholds⟩ | ⟨id, rest, count, -, hfinish⟩
    · rw [hdone] at hfinish
      obtain ⟨-, rfl⟩ := Progress.done.inj hfinish
      exact eased_shell.2 (hbelow.of_eases (.of_eq hholds))
    · rw [hdone] at hfinish
      cases hfinish
  | @goesOn d d' job below s hstack hfin hrunning =>
    obtain ⟨hable, hbelow⟩ := able_of_eased h hstack
    have htear : Eases m.session.world (m.session.world.tearDown d.thread d.process d.target) :=
      .of_eq (holds_tearDown _ _ _ _)
    rcases finish_cases hable with ⟨a, s', hfinish, heases⟩ | ⟨id, rest, count, -, hfinish⟩
    · rw [hrunning] at hfinish
      cases hfinish
    · rw [hrunning] at hfinish
      obtain ⟨rfl, rfl⟩ := Progress.running.inj hfinish
      exact eased_shell.2 ⟨⟨rfl, hable.2.of_sublist (htear _)⟩, hbelow.of_eases htear⟩

theorem eased_redirect (h : m.Eased) (steps : List Step) : (m.redirect steps).Eased := by
  rw [← eased_scene, scene_redirect, eased_scene]
  exact h

/-- The operations on the stack can go on at every point of a run, whatever its steps are. -/
theorem eased_of_run (h : m.Eased) (hrun : Run allowed m m') : m'.Eased := by
  induction hrun with
  | refl => exact h
  | step _ _ ih => exact (eased_act ih).of_eases (.of_eq (holds_sweep _ _ _ _))
  | redirect _ steps ih => exact eased_redirect ih steps

/-- At every point of every run operations can go on. -/
theorem eased_of_reachable (h : Reachable allowed m) : m.Eased := by
  obtain ⟨files, environment, fieldCount, script, hrun⟩ := h
  have hstart : (start files environment fieldCount script).Eased := trivial
  exact eased_of_run hstart hrun

end Machine

end TieredState
