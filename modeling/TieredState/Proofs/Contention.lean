import Mathlib.Data.List.Perm.Basic
import Mathlib.Logic.Function.Basic
import Mathlib.Logic.Relation
import TieredState.Proofs.Locks

/-!
# Threads that contend for objects

A lock object, be it the variables of one instance or a cell, is had by one thread alone or shared by
several, and a thread that asks for one that others have may have to wait. `Contention` is a world
with what every thread has to do with such objects; several objects may go by one lock, as all
instances do. A thread first asks the record of its locks (`World.take`), and waits only if it was
not refused. When it lets go of an object, the record is told afterwards (`World.giveBack`).

* `recorded_of_steps` — what a thread waits for, has and has let go of is what its record tells, and
  what it waits for ranks above all that it has.
* `rank_le_of_blocked` — so ranks go up along a chain of threads each of which is blocked by the
  next.
* `deadlock_free` — no chain of blocked threads is closed, whatever the threads do and however they
  take turns, and a request that could close one is refused.
-/

namespace TieredState

/-- How a thread has an object: with others, or alone. -/
inductive Mode where
  | shared
  | alone
  deriving DecidableEq, Repr

/-- What one thread has to do with objects. The lock of each of them is on its record. -/
structure Share (Obj : Type) where
  -- What the thread waits for.
  waiting? : Option (Obj × Mode) := none
  -- What it has.
  guards : List (Obj × Mode) := []
  -- What it has let go of, without having told the record yet.
  spent : List Obj := []

/-- The objects whose locks are on the thread's record. -/
def Share.objects {Obj : Type} (s : Share Obj) : List Obj :=
  s.waiting?.toList.map (·.1) ++ (s.guards.map (·.1) ++ s.spent)

/-- A world whose threads contend for objects. -/
structure Contention (Obj : Type) where
  world : World
  share : ThreadId → Share Obj

namespace Contention

open World

variable {Obj : Type} {lock : Obj → Lock} {c c' c₀ : Contention Obj}
  {t t' : ThreadId} {o o' : Obj} {a : Mode}

/-- The thread waits for the object. -/
def Waits (c : Contention Obj) (t : ThreadId) (o : Obj) : Prop := ∃ a, (c.share t).waiting? = some (o, a)

/-- The thread has the object. -/
def Has (c : Contention Obj) (t : ThreadId) (o : Obj) : Prop := ∃ a, (o, a) ∈ (c.share t).guards

/-- The first thread waits for an object that the second one has. -/
def BlockedBy (c : Contention Obj) (t t' : ThreadId) : Prop := ∃ o, c.Waits t o ∧ c.Has t' o

/-- An object can be had: nobody has it, or, to share it, nobody has it alone. -/
def Free (c : Contention Obj) (o : Obj) : Mode → Prop
  | .alone => ∀ t, ¬c.Has t o
  | .shared => ∀ t, (o, Mode.alone) ∉ (c.share t).guards

/-- Change what one thread has to do with objects. -/
def setShare (c : Contention Obj) (t : ThreadId) (s : Share Obj) : Contention Obj :=
  { c with share := Function.update c.share t s }

/-- Ask for an object: its lock goes on the record, and the thread waits for it from then on. -/
def request (lock : Obj → Lock) (c : Contention Obj) (t : ThreadId) (o : Obj) (a : Mode) :
    Except AccessError (Contention Obj) := do
  let w ← c.world.take t (lock o)
  return { c with world := w }.setShare t { c.share t with waiting? := some (o, a) }

/-- Get the object that the thread waits for. -/
def grant (c : Contention Obj) (t : ThreadId) (o : Obj) (a : Mode) : Contention Obj :=
  c.setShare t { c.share t with waiting? := none, guards := (o, a) :: (c.share t).guards }

variable [DecidableEq Obj] in
/-- Let go of an object. -/
def letGo (c : Contention Obj) (t : ThreadId) (o : Obj) (a : Mode) : Contention Obj :=
  c.setShare t { c.share t with
    guards := (c.share t).guards.erase (o, a)
    spent := o :: (c.share t).spent }

variable [DecidableEq Obj] in
/-- Take the lock of an object that was let go of off the record. -/
def strike (lock : Obj → Lock) (c : Contention Obj) (t : ThreadId) (o : Obj) : Contention Obj :=
  { c with world := c.world.giveBack t (lock o) }.setShare t
    { c.share t with spent := (c.share t).spent.erase o }

variable [DecidableEq Obj] in
/-- What can happen next. A thread that waits does nothing else, and it gets the object at the
earliest when it is free. -/
inductive Step (lock : Obj → Lock) (c : Contention Obj) : Contention Obj → Prop
  | asks {c' : Contention Obj} {t : ThreadId} {o : Obj} {a : Mode}
    (hready : (c.share t).waiting? = none) (hrequest : c.request lock t o a = .ok c') :
    Step lock c c'
  | refused {t : ThreadId} {o : Obj} {a : Mode} {e : AccessError}
    (hready : (c.share t).waiting? = none) (hrequest : c.request lock t o a = .error e) :
    Step lock c c
  | gets {t : ThreadId} {o : Obj} {a : Mode} (hwaits : (c.share t).waiting? = some (o, a))
    (hfree : c.Free o a) : Step lock c (c.grant t o a)
  | letsGo {t : ThreadId} {o : Obj} {a : Mode} (hready : (c.share t).waiting? = none)
    (hhas : (o, a) ∈ (c.share t).guards) : Step lock c (c.letGo t o a)
  | strikes {t : ThreadId} {o : Obj} (hready : (c.share t).waiting? = none)
    (hspent : o ∈ (c.share t).spent) : Step lock c (c.strike lock t o)
  /-- Something else happens to the world, by which no lock is taken or given back. -/
  | elsewhere {w : World} (hholds : w.holds = c.world.holds) : Step lock c { c with world := w }

variable [DecidableEq Obj] in
/-- What can happen over time. -/
abbrev Steps (lock : Obj → Lock) : Contention Obj → Contention Obj → Prop :=
  Relation.ReflTransGen (Step lock)

/-- No thread has anything to do with an object, and no lock is on record. -/
def AtRest (c : Contention Obj) : Prop := ∀ t, c.world.holds t = [] ∧ c.share t = {}

/-! ## Records -/

/-- The record of a thread's locks is about the objects that the thread has to do with: it tells
their locks, in ascending order, and what the thread waits for ranks above all that it has. -/
structure Recorded (lock : Obj → Lock) (held : Held) (s : Share Obj) : Prop where
  ascending : held.Pairwise (·.rank < ·.rank)
  entered : held.Perm (s.objects.map lock)
  above : ∀ o a, s.waiting? = some (o, a) → ∀ g ∈ s.guards, (lock g.1).rank < (lock o).rank

namespace Recorded

variable {held : Held} {s : Share Obj}

/-- The lock of what a thread has is on its record. -/
theorem mem_of_guard (h : Recorded lock held s) {g : Obj × Mode} (hg : g ∈ s.guards) :
    lock g.1 ∈ held := by
  refine h.entered.mem_iff.2 (List.mem_map_of_mem ?_)
  exact List.mem_append_right _ (List.mem_append_left _ (List.mem_map_of_mem hg))

/-- A thread may ask for an object whose lock ranks above all that is on its record. -/
theorem asks (h : Recorded lock held s) (hready : s.waiting? = none)
    (hbelow : ∀ x ∈ held, x.rank < (lock o).rank) :
    Recorded lock (held ++ [lock o]) { s with waiting? := some (o, a) } := by
  refine ⟨?_, ?_, ?_⟩
  · refine List.pairwise_append.2 ⟨h.ascending, List.pairwise_singleton _ _, ?_⟩
    intro x hx y hy
    rw [List.mem_singleton.1 hy]
    exact hbelow x hx
  · have hentered := h.entered
    unfold Share.objects at hentered ⊢
    rw [hready] at hentered
    exact (List.perm_append_singleton _ _).trans (hentered.cons (lock o))
  · intro o' a' heq g hg
    obtain ⟨rfl, -⟩ := Prod.mk.inj (Option.some.inj heq)
    exact hbelow _ (h.mem_of_guard hg)

/-- A thread that gets what it waits for goes on with its record. -/
theorem gets (h : Recorded lock held s) (hwaits : s.waiting? = some (o, a)) :
    Recorded lock held { s with waiting? := none, guards := (o, a) :: s.guards } := by
  have hentered := h.entered
  unfold Share.objects at hentered
  rw [hwaits] at hentered
  exact ⟨h.ascending, hentered, nofun⟩

variable [DecidableEq Obj] in
/-- A thread may let go of what it has. -/
theorem letsGo (h : Recorded lock held s) (hready : s.waiting? = none) (hhas : (o, a) ∈ s.guards) :
    Recorded lock held { s with guards := s.guards.erase (o, a), spent := o :: s.spent } := by
  have hmoved : (s.guards.map (·.1) ++ s.spent).Perm
      ((s.guards.erase (o, a)).map (·.1) ++ o :: s.spent) :=
    (((List.perm_cons_erase hhas).map (·.1)).append_right _).trans List.perm_middle.symm
  refine ⟨h.ascending, h.entered.trans (List.Perm.map _ ?_), ?_⟩
  · unfold Share.objects
    exact hmoved.append_left _
  · intro o' a' heq
    rw [show s.waiting? = some (o', a') from heq] at hready
    cases hready

variable [DecidableEq Obj] in
/-- A thread may strike from its record what it has let go of. -/
theorem strikes (h : Recorded lock held s) (hready : s.waiting? = none) (hspent : o ∈ s.spent) :
    Recorded lock (held.release (lock o)) { s with spent := s.spent.erase o } := by
  refine ⟨h.ascending.sublist ?_, ?_, ?_⟩
  · unfold Held.release
    exact List.reverse_sublist.1 (by rw [List.reverse_reverse]; exact List.erase_sublist)
  · have hstruck : (s.objects.map lock).Perm
        (lock o :: ({ s with spent := s.spent.erase o } : Share Obj).objects.map lock) := by
      rw [← List.map_cons]
      refine List.Perm.map _ ?_
      unfold Share.objects
      exact (((List.perm_cons_erase hspent).append_left _).append_left _).trans
        ((List.perm_middle.append_left _).trans List.perm_middle)
    have herased := (h.entered.trans hstruck).erase (lock o)
    rw [List.erase_cons_head] at herased
    exact (Held.release_perm _ _).trans herased
  · intro o' a' heq
    rw [show s.waiting? = some (o', a') from heq] at hready
    cases hready

end Recorded

/-- Every thread's record is right. -/
def Sound (lock : Obj → Lock) (c : Contention Obj) : Prop :=
  ∀ t, Recorded lock (c.world.holds t) (c.share t)

/-- Only one thread's record and share have changed, and they fit each other. -/
theorem Sound.of_one {w : World} {s : Share Obj} (h : c.Sound lock)
    (hholds : ∀ t', t' ≠ t → w.holds t' = c.world.holds t') (hone : Recorded lock (w.holds t) s) :
    ({ c with world := w }.setShare t s).Sound lock := by
  intro t'
  show Recorded lock (w.holds t') (Function.update c.share t s t')
  by_cases heq : t' = t
  · rw [heq, Function.update_self]
    exact hone
  · rw [Function.update_of_ne heq, hholds t' heq]
    exact h t'

/-- Only one thread's share has changed. -/
theorem Sound.of_share {s : Share Obj} (h : c.Sound lock)
    (hone : Recorded lock (c.world.holds t) s) : (c.setShare t s).Sound lock :=
  h.of_one (w := c.world) (fun _ _ => rfl) hone

variable [DecidableEq Obj] in
/-- Whatever happens next leaves every record right. -/
theorem sound_of_step (h : c.Sound lock) (hstep : Step lock c c') : c'.Sound lock := by
  -- a step changes the record of one thread at most
  cases hstep with
  | @asks _ t o a hready hrequest =>
    obtain ⟨w, htake, hc⟩ := bind_eq_ok.1 hrequest
    rw [← Except.ok.inj hc]
    obtain ⟨hbelow, hholds⟩ := holds_take htake
    refine h.of_one (fun t' hne => ?_) ?_
    · rw [hholds, if_neg hne]
    · rw [hholds, if_pos rfl]
      exact (h t).asks hready hbelow
  | refused => exact h
  | gets hwaits hfree => exact h.of_share ((h _).gets hwaits)
  | letsGo hready hhas => exact h.of_share ((h _).letsGo hready hhas)
  | @strikes t o hready hspent =>
    refine h.of_one (fun t' hne => ?_) ?_
    · rw [holds_giveBack, if_neg hne]
    · rw [holds_giveBack, if_pos rfl]
      exact (h t).strikes hready hspent
  | @elsewhere w hholds =>
    intro t
    show Recorded lock (w.holds t) (c.share t)
    rw [hholds]
    exact h t

/-- At rest there is nothing on any record. -/
theorem sound_of_atRest (h : c.AtRest) : c.Sound lock := by
  intro t
  obtain ⟨hheld, hshare⟩ := h t
  rw [hheld, hshare]
  exact ⟨List.Pairwise.nil, List.Perm.nil, nofun⟩

variable [DecidableEq Obj] in
/-- From rest on every record is right. -/
theorem sound_of_steps (h₀ : c₀.AtRest) (hsteps : Steps lock c₀ c) : c.Sound lock := by
  induction hsteps with
  | refl => exact sound_of_atRest h₀
  | tail _ hstep ih => exact sound_of_step ih hstep

/-! ## Chains of blocked threads -/

/-- What a thread has ranks below what it waits for. -/
theorem Sound.rank_lt (h : c.Sound lock) (hhas : c.Has t o) (hwaits : c.Waits t o') :
    (lock o).rank < (lock o').rank := by
  obtain ⟨a, hhas⟩ := hhas
  obtain ⟨a', hwaits⟩ := hwaits
  exact (h t).above o' a' hwaits (o, a) hhas

/-- A thread waits for one object at a time. -/
theorem Waits.unique (h : c.Waits t o) (h' : c.Waits t o') : o = o' := by
  obtain ⟨a, h⟩ := h
  obtain ⟨a', h'⟩ := h'
  rw [h] at h'
  exact (Prod.mk.inj (Option.some.inj h')).1

/-- Along a chain of threads each of which is blocked by the next, ranks do not go down: the last one
has an object that ranks no lower than what the first one waits for. -/
theorem Sound.rank_le_of_blocked (h : c.Sound lock) (hwaits : c.Waits t o)
    (hchain : Relation.TransGen c.BlockedBy t t') :
    ∃ o', c.Has t' o' ∧ (lock o).rank ≤ (lock o').rank := by
  induction hchain with
  | single hblocked =>
    obtain ⟨o', hwaits', hhas⟩ := hblocked
    rw [hwaits.unique hwaits']
    exact ⟨o', hhas, Nat.le_refl _⟩
  | tail _ hblocked ih =>
    -- the thread before the last has one object and waits for the next, which ranks higher
    obtain ⟨o₁, hhas₁, hle⟩ := ih
    obtain ⟨o₂, hwaits₂, hhas₂⟩ := hblocked
    exact ⟨o₂, hhas₂, Nat.le_trans hle (Nat.le_of_lt (h.rank_lt hhas₁ hwaits₂))⟩

/-- No thread is blocked by itself, over however many others. -/
theorem Sound.no_cycle (h : c.Sound lock) : ¬Relation.TransGen c.BlockedBy t t := by
  intro hchain
  obtain ⟨t₁, ⟨o, hwaits, -⟩, -⟩ := Relation.TransGen.head'_iff.1 hchain
  obtain ⟨o', hhas, hle⟩ := h.rank_le_of_blocked hwaits hchain
  have hlt := h.rank_lt hhas hwaits
  omega

/-- A thread on which the holder of an object depends, or which has it itself, has one that ranks no
lower. -/
theorem Sound.rank_le_of_depends (h : c.Sound lock) (hhas : c.Has t' o)
    (hdepends : Relation.ReflTransGen c.BlockedBy t' t) :
    ∃ o', c.Has t o' ∧ (lock o).rank ≤ (lock o').rank := by
  rcases Relation.reflTransGen_iff_eq_or_transGen.1 hdepends with rfl | hchain
  · exact ⟨o, hhas, Nat.le_refl _⟩
  · obtain ⟨t₁, ⟨o₁, hwaits, -⟩, -⟩ := Relation.TransGen.head'_iff.1 hchain
    obtain ⟨o', hhas', hle⟩ := h.rank_le_of_blocked hwaits hchain
    have hlt := h.rank_lt hhas hwaits
    exact ⟨o', hhas', by omega⟩

/-- A request for an object that the thread has, or on whose holder the thread is depended on, is
refused. -/
theorem Sound.refused (h : c.Sound lock) (hhas : c.Has t' o)
    (hdepends : Relation.ReflTransGen c.BlockedBy t' t) (a : Mode) :
    ∃ b ∈ c.world.holds t, (lock o).rank ≤ b.rank ∧
      c.request lock t o a = .error (.lockOrder b (lock o)) := by
  obtain ⟨o', ⟨a', hguard⟩, hle⟩ := h.rank_le_of_depends hhas hdepends
  obtain ⟨b, hb, hrank, -, htake, -⟩ := refused_of_le ((h t).mem_of_guard hguard) hle
  refine ⟨b, hb, hrank, ?_⟩
  unfold request
  rw [htake]
  rfl

/-! ## Ends of chains -/

/-- What threads wait for ranks below `n`. -/
def WaitsBelow (lock : Obj → Lock) (c : Contention Obj) (n : Nat) : Prop :=
  ∀ t o, c.Waits t o → (lock o).rank < n

/-- A thread that waits waited before, or has asked just now. -/
theorem waits_setShare {s : Share Obj} (h : (c.setShare t s).Waits t' o) :
    (t' = t ∧ ∃ a, s.waiting? = some (o, a)) ∨ c.Waits t' o := by
  obtain ⟨a, h⟩ := h
  change (Function.update c.share t s t').waiting? = some (o, a) at h
  by_cases heq : t' = t
  · rw [heq, Function.update_self] at h
    exact .inl ⟨heq, a, h⟩
  · rw [Function.update_of_ne heq] at h
    exact .inr ⟨a, h⟩

variable [DecidableEq Obj] in
/-- In one step the ranks that are waited for stay bounded. -/
theorem waitsBelow_of_step {n : Nat} (h : c.WaitsBelow lock n) (hstep : Step lock c c') :
    ∃ n', c'.WaitsBelow lock n' := by
  -- a step after which the thread does not wait leaves the others waiting for what they did
  have hready : ∀ {t : ThreadId} {s : Share Obj} {w : World}, s.waiting? = none →
      (({ c with world := w } : Contention Obj).setShare t s).WaitsBelow lock n := by
    intro t s w hnone t' o hwaits
    rcases waits_setShare hwaits with ⟨-, a, hsome⟩ | hwaits
    · rw [hnone] at hsome
      cases hsome
    · exact h t' o hwaits
  cases hstep with
  | @asks _ t o a _ hrequest =>
    obtain ⟨w, -, hc⟩ := bind_eq_ok.1 hrequest
    rw [← Except.ok.inj hc]
    refine ⟨max n ((lock o).rank + 1), fun t' o' hwaits => ?_⟩
    rcases waits_setShare hwaits with ⟨-, a', hsome⟩ | hwaits
    · obtain ⟨rfl, -⟩ := Prod.mk.inj (Option.some.inj hsome)
      omega
    · have hlt := h t' o' hwaits
      omega
  | refused => exact ⟨n, h⟩
  | gets => exact ⟨n, hready (w := c.world) rfl⟩
  | letsGo hnone => exact ⟨n, hready (w := c.world) hnone⟩
  | strikes hnone => exact ⟨n, hready hnone⟩
  | elsewhere => exact ⟨n, h⟩

variable [DecidableEq Obj] in
/-- From rest on the ranks that are waited for are bounded. -/
theorem waitsBelow_of_steps (h₀ : c₀.AtRest) (hsteps : Steps lock c₀ c) :
    ∃ n, c.WaitsBelow lock n := by
  induction hsteps with
  | refl =>
    refine ⟨0, fun t o ⟨a, hwaits⟩ => ?_⟩
    rw [(h₀ t).2] at hwaits
    cases hwaits
  | tail _ hstep ih =>
    obtain ⟨n, hbelow⟩ := ih
    exact waitsBelow_of_step hbelow hstep

/-- A thread is not blocked: it waits for nothing that anybody has. -/
def Unblocked (c : Contention Obj) (t : ThreadId) : Prop := ∀ t', ¬c.BlockedBy t t'

/-- Since ranks go up along a chain of blocked threads, it ends with one that is not blocked. -/
theorem Sound.chain_ends {n : Nat} (h : c.Sound lock) (hbelow : c.WaitsBelow lock n)
    (hblocked : c.BlockedBy t t') :
    ∃ t'', Relation.TransGen c.BlockedBy t t'' ∧ c.Unblocked t'' := by
  obtain ⟨o, hwaits, hhas⟩ := hblocked
  -- the measure is how far what the thread waits for is from the bound
  generalize hgap : n - (lock o).rank = gap
  induction gap using Nat.strongRecOn generalizing t t' o with
  | ind gap ih =>
    by_cases hend : c.Unblocked t'
    · exact ⟨t', .single ⟨o, hwaits, hhas⟩, hend⟩
    · unfold Unblocked at hend
      push Not at hend
      obtain ⟨t₁, o₁, hwaits₁, hhas₁⟩ := hend
      have hlt := h.rank_lt hhas hwaits₁
      have hn := hbelow t' o₁ hwaits₁
      obtain ⟨t₂, hchain, hend⟩ :=
        ih (n - (lock o₁).rank) (by omega) o₁ hwaits₁ hhas₁ rfl
      exact ⟨t₂, .head ⟨o, hwaits, hhas⟩ hchain, hend⟩

variable [DecidableEq Obj] in
/-- Threads never lock each other out. Whatever objects there are, however ranks are shared among
them, and however the threads take turns: no chain of threads each of which is blocked by the next is
closed; no thread waits for what it has; a thread that is blocked is so, in the end, by one that is
not; and a request that would close a chain is refused before the thread waits, for the sake of a lock
that the thread holds. -/
theorem deadlock_free (h₀ : c₀.AtRest) (hsteps : Steps lock c₀ c) :
    (∀ t, ¬Relation.TransGen c.BlockedBy t t) ∧
    (∀ t o, c.Waits t o → ¬c.Has t o) ∧
    (∀ t t', c.BlockedBy t t' →
      ∃ t'', Relation.TransGen c.BlockedBy t t'' ∧ c.Unblocked t'') ∧
    ∀ t t' o a, c.Has t' o → Relation.ReflTransGen c.BlockedBy t' t →
      ∃ b ∈ c.world.holds t, (lock o).rank ≤ b.rank ∧
        c.request lock t o a = .error (.lockOrder b (lock o)) := by
  have hsound := sound_of_steps h₀ hsteps
  obtain ⟨n, hbelow⟩ := waitsBelow_of_steps h₀ hsteps
  refine ⟨fun t => hsound.no_cycle, ?_, ?_, ?_⟩
  · intro t o hwaits hhas
    have hlt := hsound.rank_lt hhas hwaits
    omega
  · intro t t' hblocked
    exact hsound.chain_ends hbelow hblocked
  · intro t t' o a hhas hdepends
    exact hsound.refused hhas hdepends a

/-- The locks of two objects. -/
def twoLocks : Bool → Lock
  | false => .registry
  | true => .hooks

/-- Two threads take two objects crosswise: the main thread has the first and waits for the second,
and the worker that has the second is refused the first. -/
theorem crossing_refused :
    ∃ c : Contention Bool, Steps twoLocks ⟨{}, fun _ => {}⟩ c ∧
      c.BlockedBy .main (.worker "a") ∧ ¬Relation.TransGen c.BlockedBy .main .main ∧
      ∃ b ∈ c.world.holds (.worker "a"), Lock.registry.rank ≤ b.rank ∧
        c.request twoLocks (.worker "a") false .alone = .error (.lockOrder b .registry) := by
  have hrest : (⟨{}, fun _ => {}⟩ : Contention Bool).AtRest := fun _ => ⟨rfl, rfl⟩
  have h₁ : Steps twoLocks ⟨{}, fun _ => {}⟩ _ :=
    .single (.asks (t := .main) (o := false) (a := .alone) rfl rfl)
  have h₂ := h₁.tail (.gets (t := .main) (o := false) (a := .alone) rfl (by
    rintro t ⟨a, hin⟩
    simp only [setShare, Function.update_apply] at hin
    split at hin <;> cases hin))
  have h₃ := h₂.tail (.asks (t := .worker "a") (o := true) (a := .alone) rfl rfl)
  have h₄ := h₃.tail (.gets (t := .worker "a") (o := true) (a := .alone) rfl (by
    rintro t ⟨a, hin⟩
    simp only [setShare, grant, Function.update_apply] at hin
    split at hin
    · cases hin
    · split at hin
      · cases List.mem_singleton.1 hin
      · cases hin))
  have h₅ := h₄.tail (.asks (t := .main) (o := true) (a := .alone) rfl rfl)
  obtain ⟨hcycle, -, -, hrefused⟩ := deadlock_free hrest h₅
  -- the worker has what the main thread waits for
  have hworker : (true, Mode.alone) ∈ [(true, Mode.alone)] := List.mem_singleton.2 rfl
  have hmain : (false, Mode.alone) ∈ [(false, Mode.alone)] := List.mem_singleton.2 rfl
  refine ⟨_, h₅, ⟨true, ⟨.alone, rfl⟩, ⟨.alone, hworker⟩⟩, hcycle .main, ?_⟩
  exact hrefused (.worker "a") .main false .alone ⟨.alone, hmain⟩
    (.single ⟨true, ⟨.alone, rfl⟩, ⟨.alone, hworker⟩⟩)

end Contention

end TieredState
