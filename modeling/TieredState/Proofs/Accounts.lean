import Mathlib.Data.List.Flatten
import TieredState.Proofs.Interleaving

/-!
# What a step of a call does to the account

Calls on several threads register, remove and drain instances, and mark them dead. `Deed` remembers
what they did, and `Stake` is what a call under way has begun and not ended. Here is what one step does
to both, and to the registry and the phase of the process it is a call on.

* `Still` — what a change keeps that touches no registry and no phase.
* `State.registered`, `State.removed`, `State.drained`, … — the account as the past tells it.
* `Turn.settles` — what a call has begun it has ended, or it goes on with it.
* `Turn.change` — a step registers, removes or drains, or it lets the registries be.
-/

namespace TieredState

namespace World

variable {w w' w'' : World} {t : ThreadId} {tok : Token} {id : InstanceId}

/-! ## Views of a process -/

/-- The members of the registry of a process. -/
def members (w : World) (tok : Token) : List InstanceId :=
  ((w.processes.get? tok).map (·.registry.members)).getD []

def isShutDown (w : World) (tok : Token) : Bool :=
  (w.processes.get? tok).any (·.phase = .shutDown)

/-- The instances of a process that are alive. -/
def living (w : World) (tok : Token) : List InstanceId :=
  (w.instances.filter fun _ i => i.owner = tok ∧ i.alive = true).keys

/-- The members of a process are those of its registry. -/
theorem members_eq {p : Process} (hp : w.processes.get? tok = some p) :
    w.members tok = p.registry.members := by
  unfold members
  rw [hp]
  rfl

/-- Only a process that there is has members. -/
theorem mem_members : id ∈ w.members tok ↔
    ∃ p, w.processes.get? tok = some p ∧ id ∈ p.registry.members := by
  unfold members
  cases w.processes.get? tok <;> simp

/-- Whether a process is shut down is told by its phase. -/
theorem isShutDown_eq {p : Process} (hp : w.processes.get? tok = some p) :
    w.isShutDown tok = decide (p.phase = .shutDown) := by
  unfold isShutDown
  rw [hp]
  rfl

/-- The living instances of a process are those of its own that are alive. -/
theorem mem_living : id ∈ w.living tok ↔
    ∃ i, w.instances.get? id = some i ∧ i.owner = tok ∧ i.alive = true := by
  unfold living Table.keys
  rw [List.mem_map]
  constructor
  · rintro ⟨⟨_, i⟩, hmem, rfl⟩
    obtain ⟨hmem, hi⟩ := List.mem_filter.1 hmem
    exact ⟨i, Table.get?_eq_some.2 hmem, of_decide_eq_true hi⟩
  · rintro ⟨i, hi, hlives⟩
    exact ⟨(id, i), List.mem_filter.2 ⟨Table.get?_eq_some.1 hi, decide_eq_true hlives⟩, rfl⟩

/-- No instance is living twice. -/
theorem nodup_living : (w.living tok).Nodup := (w.instances.filter _).nodup

/-- What the changes of one process do to the members of all. -/
theorem members_modifyProcess (w : World) (tok tok' : Token) (f : Process → Process) :
    (w.modifyProcess tok f).members tok' =
      if tok' = tok then ((w.processes.get? tok).map fun p => (f p).registry.members).getD []
      else w.members tok' := by
  unfold members
  rw [get?_modifyProcess]
  split
  · next heq => rw [heq, Option.map_map]; rfl
  · rfl

/-- Only the process that is changed may come to be shut down. -/
theorem isShutDown_modifyProcess (w : World) (tok tok' : Token) (f : Process → Process) :
    (w.modifyProcess tok f).isShutDown tok' =
      if tok' = tok then (w.processes.get? tok).any fun p => (f p).phase = .shutDown
      else w.isShutDown tok' := by
  unfold isShutDown
  rw [get?_modifyProcess]
  split
  · next heq => rw [heq, Option.any_map]
  · rfl

/-! ## Changes that let registries and identities be -/

/-- Nothing is registered or removed, and no phase changes. Identities may be drawn. -/
structure Still (w w' : World) : Prop where
  owners : ∀ id, (w'.instances.get? id).map (·.owner) = (w.instances.get? id).map (·.owner)
  members : ∀ tok, w'.members tok = w.members tok
  isShutDown : ∀ tok, w'.isShutDown tok = w.isShutDown tok
  nextInstance : w.nextInstance ≤ w'.nextInstance

namespace Still

/-- Nothing happens where nothing changes. -/
theorem refl (w : World) : Still w w := ⟨fun _ => rfl, fun _ => rfl, fun _ => rfl, Nat.le_refl _⟩

theorem draw (w : World) : Still w w.draw := ⟨fun _ => rfl, fun _ => rfl, fun _ => rfl, Nat.le_succ _⟩

/-- Worlds that stay still over two changes do so over both. -/
theorem trans (h : Still w w') (h' : Still w' w'') : Still w w'' where
  owners id := (h'.owners id).trans (h.owners id)
  members tok := (h'.members tok).trans (h.members tok)
  isShutDown tok := (h'.isShutDown tok).trans (h.isShutDown tok)
  nextInstance := Nat.le_trans h.nextInstance h'.nextInstance

theorem of_calm (h : Calm w w') : Still w w' where
  owners id := by
    have hview : ∀ v : World, (v.instances.get? id).map (·.owner) =
        ((v.instances.get? id).map Instance.standing).map (·.1) := fun v => by
      rw [Option.map_map]
      rfl
    rw [hview, hview, h.instances]
  members tok := by
    have hview : ∀ v : World, v.members tok =
        (((v.processes.get? tok).map Process.standing).map (·.2.2.1.members)).getD [] := fun v => by
      rw [Option.map_map]
      rfl
    rw [hview, hview, h.processes]
  isShutDown tok := by
    have hview : ∀ v : World, v.isShutDown tok =
        ((v.processes.get? tok).map Process.standing).any (·.1 = .shutDown) := fun v => by
      rw [Option.any_map]
      rfl
    rw [hview, hview, h.processes]
  nextInstance := Nat.le_of_eq h.nextInstance.symm

theorem of_local (h : Local t w w') : Still w w' where
  owners id := by rw [h.instances]
  members tok := by rw [World.members, h.processes, World.members]
  isShutDown tok := by rw [World.isShutDown, h.processes, World.isShutDown]
  nextInstance := Nat.le_of_eq h.nextInstance.symm

theorem start {out : List InstanceId} (h : RegistrySound w out) (c : Config) :
    Still w (w.start c).2 := by
  have hnone : w.processes.get? ⟨w.nextToken⟩ = none := by
    refine Option.eq_none_iff_forall_ne_some.2 fun p hp => ?_
    exact Nat.lt_irrefl _ (h.tokenDrawn _ p hp)
  refine ⟨fun _ => rfl, fun tok => ?_, fun tok => ?_, Nat.le_refl _⟩
  · unfold World.members
    rw [get?_start]
    split
    · next heq =>
      rw [heq, hnone]
      rfl
    · rfl
  · unfold World.isShutDown
    rw [get?_start]
    split
    · next heq =>
      rw [heq, hnone]
      rfl
    · rfl

theorem marked (w : World) (id : InstanceId) : Still w (w.marked id) where
  owners id' := by
    unfold World.marked
    rw [get?_modifyInstance]
    split
    · rw [Option.map_map]
      rfl
    · rfl
  members _ := rfl
  isShutDown _ := rfl
  nextInstance := Nat.le_refl _

/-- The end of an instance removes nothing, as it has been removed before. -/
theorem tearDown (w : World) (t : ThreadId) (tok : Token) (id : InstanceId) :
    Still w (w.tearDown t tok id) := by
  rcases tearDown_cases w t tok id with ⟨heq, -⟩ | ⟨-, hspec⟩
  · rw [heq]
    exact marked w id
  · exact (marked w id).trans (of_local hspec.frame)

theorem releaseKey (w : World) (t : ThreadId) (tok : Token) : Still w (w.releaseKey t tok) := by
  have hmodify : Still w (w.modifyProcess tok fun p => { p with released := true }) := by
    refine ⟨fun _ => rfl, fun tok' => ?_, fun tok' => ?_, Nat.le_refl _⟩
    · rw [members_modifyProcess]
      split
      · next heq => rw [heq]; rfl
      · rfl
    · rw [isShutDown_modifyProcess]
      split
      · next heq => rw [heq]; rfl
      · rfl
  exact hmodify.trans (of_local (local_setThread _ _ _))

end Still

end World

namespace Concurrent

open World

/-! ## What the past and the calls tell -/

namespace Deed

-- What a deed adds to each of the lists that are kept of the past: nothing, or one entry.

def draws : Deed → List InstanceId
  | drawn id => [id]
  | _ => []

def registers : Deed → List InstanceId
  | registered id => [id]
  | _ => []

def removes : Deed → List InstanceId
  | removed id => [id]
  | _ => []

def drains : Deed → List (List InstanceId)
  | drained ids => [ids]
  | _ => []

def creates : Deed → List InstanceId
  | created id => [id]
  | _ => []

def destroys : Deed → List InstanceId
  | destroyed id => [id]
  | _ => []

/-- The number that a shutdown returned. -/
def counts : Deed → List Nat
  | shutDown count => [count]
  | _ => []

end Deed

namespace Advance

variable {α : Type}

/-- What the step adds to a list made of the past. -/
def told (a : Advance) (f : Deed → List α) : List α := a.deed?.toList.flatMap f

/-- What the call is left with in a list made of the calls. -/
def left (a : Advance) (f : Stake → List α) : List α := (a.point?.map fun p => f p.stake).getD []

end Advance

namespace State

variable {α : Type}

/-- What was done on some of the processes, the latest first. -/
def deeds (s : State) (q : Token → Bool) : List Deed :=
  (s.past.filter fun e => q e.process).map (·.deed)

/-- What the calls on some of the processes have to do with instances. -/
def stakes (s : State) (q : Token → Bool) (f : Stake → List α) : List α :=
  (s.calls.filter fun c => q c.process).flatMap fun c => f c.point.stake

section Queries

variable (s : State) (tok : Token)

/-- All identities that were ever drawn. -/
def drawn : List InstanceId := (s.deeds fun _ => true).flatMap Deed.draws

/-- All instances that were ever registered. -/
def enrolled : List InstanceId := (s.deeds fun _ => true).flatMap Deed.registers

/-- The instances that were ever registered with a process. -/
def registered : List InstanceId := (s.deeds (· = tok)).flatMap Deed.registers

/-- Those that destructions have removed. -/
def removed : List InstanceId := (s.deeds (· = tok)).flatMap Deed.removes

/-- Those that each shutdown has drained. -/
def drained : List (List InstanceId) := (s.deeds (· = tok)).flatMap Deed.drains

/-- The instances that creations have returned. -/
def created : List InstanceId := (s.deeds (· = tok)).flatMap Deed.creates

/-- The instances whose destruction has returned. -/
def destroyed : List InstanceId := (s.deeds (· = tok)).flatMap Deed.destroys

/-- The numbers that shutdowns have returned. -/
def counts : List Nat := (s.deeds (· = tok)).flatMap Deed.counts

/-- What was registered with a process was registered. -/
theorem registered_sublist : (s.registered tok).Sublist s.enrolled := by
  unfold registered enrolled deeds
  refine List.Sublist.flatMap (List.Sublist.map _ ?_) _
  rw [List.filter_true]
  exact List.filter_sublist

end Queries

/-! ### After a step of a call -/

variable {s : State} {q : Token → Bool} {before after : List Ongoing} {c : Ongoing} {a : Advance}

/-- What a step of a call has done comes first. -/
theorem deeds_taken (hq : q c.process = true) :
    (s.taken before c after a).deeds q = a.deed?.toList ++ s.deeds q := by
  unfold deeds taken
  cases a.deed? <;> simp [hq]

/-- What is told of a step comes before what was told of the others. -/
theorem told_taken (hq : q c.process = true) (f : Deed → List α) :
    ((s.taken before c after a).deeds q).flatMap f = a.told f ++ (s.deeds q).flatMap f := by
  rw [deeds_taken hq, List.flatMap_append, Advance.told]

/-- What is done on other processes is left out. -/
theorem deeds_taken_of_not (hq : q c.process = false) :
    (s.taken before c after a).deeds q = s.deeds q := by
  unfold deeds taken
  cases a.deed? <;> simp [hq]

/-- What one call has to do with instances, and what the rest of them have: a step of the call changes
its own part only. -/
theorem exists_rest (hcalls : s.calls = before ++ c :: after) (hq : q c.process = true)
    (f : Stake → List α) : ∃ rest, (s.stakes q f).Perm (f c.point.stake ++ rest) ∧
      ∀ a, ((s.taken before c after a).stakes q f).Perm (a.left f ++ rest) := by
  refine ⟨((before ++ after).filter fun c => q c.process).flatMap fun c => f c.point.stake, ?_, ?_⟩
  · unfold stakes
    rw [hcalls]
    simp only [List.filter_append, List.filter_cons, hq, if_true, List.flatMap_append,
      List.flatMap_cons]
    exact List.perm_append_comm_assoc _ _ _
  · intro a
    unfold stakes taken Advance.left
    cases a.point? with
    | none => simp
    | some p =>
      simp only [Option.map_some, Option.toList_some, List.filter_append, List.filter_cons,
        Ongoing.goTo, hq, if_true, List.filter_nil, List.flatMap_append, List.flatMap_cons,
        List.flatMap_nil, List.append_nil, List.append_assoc]
      exact List.perm_append_comm_assoc _ _ _

/-- Calls on other processes have no stake. -/
theorem stakes_taken_of_not (hcalls : s.calls = before ++ c :: after) (hq : q c.process = false)
    (f : Stake → List α) : (s.taken before c after a).stakes q f = s.stakes q f := by
  unfold stakes taken
  rw [hcalls]
  cases a.point? <;> simp [hq, Ongoing.goTo]

/-- What a call has to do with instances is among the stakes. -/
theorem mem_stakes {f : Stake → List α} {x : α} (hc : c ∈ s.calls) (hq : q c.process = true)
    (hx : x ∈ f c.point.stake) : x ∈ s.stakes q f :=
  List.mem_flatMap.2 ⟨c, List.mem_filter.2 ⟨hc, hq⟩, hx⟩

/-- After a step the calls are those from before, with one of them gone on. -/
theorem mem_calls_taken {c' : Ongoing} (hcalls : s.calls = before ++ c :: after)
    (h : c' ∈ (s.taken before c after a).calls) :
    c' ∈ s.calls ∨ ∃ p, a.point? = some p ∧ c' = c.goTo p := by
  rw [hcalls]
  unfold taken at h
  cases hp : a.point? with
  | none =>
    rw [hp] at h
    simp only [Option.map_none, Option.toList_none, List.append_nil, List.mem_append] at h
    simp only [List.mem_append, List.mem_cons]
    exact .inl (h.imp_right .inr)
  | some p =>
    rw [hp] at h
    simp only [Option.map_some, Option.toList_some, List.mem_append, List.mem_singleton] at h
    simp only [List.mem_append, List.mem_cons, Option.some.injEq, exists_eq_left']
    rcases h with (h | h) | h
    · exact .inl (.inl h)
    · exact .inr h
    · exact .inl (.inr (.inr h))

/-- A call that begins has nothing to do with any instance yet. -/
theorem stakes_begin {t : ThreadId} {tok : Token} {p : Point} {f : Stake → List α}
    (hp : p.stake = {}) (hf : f {} = []) : (s.begin t tok p).stakes q f = s.stakes q f := by
  unfold stakes State.begin
  rw [List.filter_cons]
  split
  · rw [List.flatMap_cons, hp, hf, List.nil_append]
  · rfl

end State

/-! ## What a step does to the account -/

section Turns

variable {c : Ongoing} {w : World} {a : Advance} {out : List InstanceId} {tok : Token}

/-- What a call has begun it has ended, or it goes on with it. -/
structure Settles (c : Ongoing) (a : Advance) : Prop where
  created : a.told Deed.registers ++ c.point.stake.created =
    a.told Deed.creates ++ a.left (·.created)
  destroyed : a.told Deed.removes ++ c.point.stake.destroyed =
    a.told Deed.destroys ++ a.left (·.destroyed)
  swept : a.told (·.drains.map List.length) ++ c.point.stake.swept =
    a.told Deed.counts ++ a.left (·.swept)

namespace Turn

/-- What a step begins is settled by what comes after it. -/
theorem settles (h : Turn c w a) : Settles c a := by
  cases h with
  | refused e h => constructor <;> (rw [h]; rfl)
  | goesOn p h => constructor <;> (rw [← h]; rfl)
  | draws parent? h => constructor <;> (rw [h]; rfl)
  | accepts h => constructor <;> (rw [h]; rfl)
  | returns h => constructor <;> (rw [h]; rfl)
  | removes h => constructor <;> (rw [h]; rfl)
  | drains h => constructor <;> (rw [h]; rfl)
  | marks h => constructor <;> (rw [h]; rfl)
  | @ends purpose h => constructor <;> (rw [h]; cases purpose <;> rfl)

/-- A call is left with an identity, or registers an instance under it, only if it had the identity or
draws it now. -/
theorem fresh (h : Turn c w a) (id : InstanceId) :
    (a.left (·.fresh)).count id + (a.told Deed.registers).count id ≤
      (a.told Deed.draws).count id + c.point.stake.fresh.count id := by
  cases h with
  | refused e h => exact Nat.zero_le _
  | goesOn p h =>
    rw [← h]
    exact Nat.le_of_eq (Nat.add_comm _ _)
  | draws parent? h =>
    rw [h]
    exact Nat.le_refl _
  | accepts h =>
    rw [h]
    exact Nat.le_refl _
  | returns h => exact Nat.zero_le _
  | removes h => exact Nat.zero_le _
  | drains h => exact Nat.zero_le _
  | @marks _ _ purpose h => cases purpose <;> exact Nat.zero_le _
  | @ends purpose h => cases purpose <;> exact Nat.zero_le _

/-- What a step of a call can do to registries and phases, with what it registers, removes and
drains. -/
inductive Change (c : Ongoing) (w : World) :
    World → List InstanceId → List InstanceId → List (List InstanceId) → Prop
  | still {w' : World} (h : Still w w') : Change c w w' [] [] []
  | accepts {parent? : Option InstanceId} {id : InstanceId} {p : Process}
    (hfresh : id ∈ c.point.stake.fresh) (hp : w.live c.process = .ok p) :
    Change c w (w.registered c.process parent? id) [id] [] []
  | removes {id : InstanceId} {p : Process} (hp : w.processes.get? c.process = some p)
    (hmem : id ∈ p.registry.members) :
    Change c w (w.modifyProcess c.process (withdrawn id)) [] [id] []
  | drains {p : Process} (hp : w.live c.process = .ok p) :
    Change c w (w.modifyProcess c.process (drained p.registry)) [] [] [p.registry.members.reverse]

/-- A step of a call registers, removes or drains at most what it tells. -/
theorem change (h : Turn c w a) :
    Change c w a.world (a.told Deed.registers) (a.told Deed.removes) (a.told Deed.drains) := by
  cases h with
  | refused => exact .still (.refl w)
  | goesOn => exact .still (.refl w)
  | draws => exact .still (.draw w)
  | accepts h _ hp => exact .accepts (h ▸ List.mem_singleton_self _) hp
  | returns => exact .still (.refl w)
  | removes _ _ hp hmem => exact .removes hp hmem
  | drains _ _ hw =>
    obtain ⟨p, hp, rfl, rfl⟩ := beginShutdown_ok hw
    exact .drains hp
  | marks => exact .still (.tearDown _ _ _ _)
  | @ends purpose =>
    cases purpose with
    | destroy id => exact .still (.refl w)
    | shutdown count => exact .still (.releaseKey _ _ _)

end Turn

namespace Turn.Change

variable {w' : World} {registers removes : List InstanceId} {drains : List (List InstanceId)}

/-- What was a member and what is registered is a member then, or it is removed or drained. -/
theorem members (h : Change c w w' registers removes drains) (hsound : RegistrySound w out)
    (hfree : ∀ id ∈ c.point.stake.fresh, w.instances.get? id = none) :
    (registers ++ w.members c.process).Perm (w'.members c.process ++ removes ++ drains.flatten) := by
  cases h with
  | still hstill => simp [hstill.members]
  | @accepts parent? id p hfresh hp =>
    obtain ⟨hget, -⟩ := live_ok.1 hp
    -- a member has an instance, and this identity has none yet
    have hout : id ∉ p.registry.members := by
      intro hmem
      obtain ⟨-, i, hi, -⟩ := hsound.member _ p id hget hmem
      rw [hfree id hfresh] at hi
      cases hi
    have hafter : (w.registered c.process parent? id).members c.process =
        Registry.insertAscending id p.registry.members :=
      members_eq (get?_registered_eq_some.2 (.inl ⟨rfl, p, hget, rfl⟩))
    rw [members_eq hget, hafter]
    simpa using (Registry.perm_insertAscending hout).symm
  | @removes id p hp hmem =>
    have hafter : (w.modifyProcess c.process (withdrawn id)).members c.process =
        p.registry.members.erase id := by
      rw [members_modifyProcess, if_pos rfl, hp, (hsound.ascending _ p hp).nodup.erase_eq_filter]
      exact List.filter_congr fun m _ => by simp [bne, beq_eq_decide]
    rw [members_eq hp, hafter]
    simpa using (List.perm_cons_erase hmem).trans (List.perm_append_singleton id _).symm
  | @drains p hp =>
    have hafter : (w.modifyProcess c.process (drained p.registry)).members c.process = [] := by
      rw [members_modifyProcess, if_pos rfl, (live_ok.1 hp).1]
      rfl
    rw [members_eq (live_ok.1 hp).1, hafter]
    simp

/-- No other process changes. -/
theorem others (h : Change c w w' registers removes drains) (hne : tok ≠ c.process) :
    w'.members tok = w.members tok ∧ w'.isShutDown tok = w.isShutDown tok := by
  have hmodify : ∀ f, (w.modifyProcess c.process f).members tok = w.members tok ∧
      (w.modifyProcess c.process f).isShutDown tok = w.isShutDown tok := by
    intro f
    rw [members_modifyProcess, if_neg hne, isShutDown_modifyProcess, if_neg hne]
    exact ⟨rfl, rfl⟩
  cases h with
  | still hstill => exact ⟨hstill.members tok, hstill.isShutDown tok⟩
  | accepts => exact hmodify _
  | removes => exact hmodify _
  | drains => exact hmodify _

/-- The process is shut down when its registry is drained, and by nothing else. -/
theorem phase (h : Change c w w' registers removes drains) :
    drains.length + (w.isShutDown c.process).toNat = (w'.isShutDown c.process).toNat := by
  cases h with
  | still hstill => rw [hstill.isShutDown, List.length_nil, Nat.zero_add]
  | @accepts parent? id p _ hp =>
    obtain ⟨hget, hphase⟩ := live_ok.1 hp
    -- a process that accepts an instance is live, and goes on to be
    have hafter : (w.registered c.process parent? id).isShutDown c.process = false := by
      refine (isShutDown_modifyProcess _ _ _ _).trans ?_
      rw [if_pos rfl, hget]
      simp only [Option.any_some, Process.register]
      split
      · rfl
      · exact decide_eq_false hphase
    rw [hafter, isShutDown_eq hget, decide_eq_false hphase]
    rfl
  | @removes id p hp =>
    rw [isShutDown_modifyProcess, if_pos rfl, hp, isShutDown_eq hp]
    exact Nat.zero_add _
  | @drains p hp =>
    obtain ⟨hget, hphase⟩ := live_ok.1 hp
    rw [isShutDown_modifyProcess, if_pos rfl, hget, isShutDown_eq hget, decide_eq_false hphase]
    rfl

/-- Nothing is registered with a process that is shut down. -/
theorem live (h : Change c w w' registers removes drains) (hreg : registers ≠ []) :
    w.isShutDown c.process = false := by
  cases h with
  | accepts _ hp =>
    rw [isShutDown_eq (live_ok.1 hp).1]
    exact decide_eq_false (live_ok.1 hp).2
  | still => exact absurd rfl hreg
  | removes => exact absurd rfl hreg
  | drains => exact absurd rfl hreg

/-- An instance has the owner that it had, or it is registered just now. -/
theorem owners (h : Change c w w' registers removes drains) (id : InstanceId) :
    (w'.instances.get? id).map (·.owner) = (w.instances.get? id).map (·.owner) ∨
      (id ∈ registers ∧ id ∈ c.point.stake.fresh) := by
  cases h with
  | still hstill => exact .inl (hstill.owners id)
  | @accepts parent? new p hfresh hp =>
    rw [get?_registered]
    split
    · next heq => exact .inr ⟨List.mem_singleton.2 heq, heq ▸ hfresh⟩
    · exact .inl rfl
  | removes => exact .inl rfl
  | drains => exact .inl rfl

/-- Identities are never given back. -/
theorem nextInstance (h : Change c w w' registers removes drains) :
    w.nextInstance ≤ w'.nextInstance := by
  cases h with
  | still hstill => exact hstill.nextInstance
  | accepts => exact Nat.le_refl _
  | removes => exact Nat.le_refl _
  | drains => exact Nat.le_refl _

/-- A process that is shut down stays so. -/
theorem stays (h : Change c w w' registers removes drains) (hdown : w.isShutDown tok = true) :
    w'.isShutDown tok = true := by
  by_cases htok : tok = c.process
  · have hphase := h.phase
    rw [← htok, hdown] at hphase
    cases hafter : w'.isShutDown tok with
    | true => rfl
    | false =>
      rw [hafter] at hphase
      exact absurd hphase (Nat.succ_ne_zero _)
  · exact (h.others htok).2.trans hdown

end Turn.Change

namespace Turn

/-- A step draws the next identity, or none. -/
theorem draws_cases (h : Turn c w a) : a.told Deed.draws = [] ∨
    (a.told Deed.draws = [⟨w.nextInstance⟩] ∧ a.world.nextInstance = w.nextInstance + 1) := by
  cases h with
  | draws => exact .inr ⟨rfl, rfl⟩
  | @ends purpose => cases purpose <;> exact .inl rfl
  | _ => exact .inl rfl

/-- A call that has had the registry's lock can list hooks from then on. -/
theorem able (h : Turn c w a) (hc : c.Able) {p : Point} (hp : a.point? = some p) :
    (c.goTo p).Able := by
  cases h with
  | goesOn p' _ hable => exact Option.some.inj hp ▸ hable
  | draws parent? =>
    refine Option.some.inj hp ▸ ⟨rfl, fun hinside => ?_⟩
    simp [Point.Inside, Point.stake, Ongoing.goTo] at hinside
  | accepts _ hclear => exact Option.some.inj hp ▸ ⟨rfl, fun _ => hclear⟩
  | removes _ hclear => exact Option.some.inj hp ▸ ⟨rfl, fun _ => hclear⟩
  | drains _ hclear => exact Option.some.inj hp ▸ ⟨rfl, fun _ => hclear⟩
  | @marks id rest purpose h =>
    refine Option.some.inj hp ▸ ⟨rfl, fun _ => hc.clear ?_⟩
    rw [h]
    cases purpose with
    | destroy id' => exact .inr (.inl (List.cons_ne_nil _ _))
    | shutdown count => exact .inr (.inr (List.cons_ne_nil _ _))
  | refused => cases hp
  | returns => cases hp
  | ends => cases hp

/-- Registries and lives go on to agree. -/
theorem registry (h : Turn c w a) {rest : List InstanceId}
    (hsound : RegistrySound w (c.point.stake.out ++ rest))
    (hfree : ∀ id ∈ c.point.stake.fresh,
      w.instances.get? id = none ∧ id.number < w.nextInstance)
    (hclosing : c.point.stake.swept ≠ [] → w.isShutDown c.process = true) :
    RegistrySound a.world (a.left (·.out) ++ rest) := by
  -- registries change where an instance is accepted, removed or drained, lives where one is marked
  cases h with
  | refused e h =>
    rw [h] at hsound
    exact hsound
  | goesOn p h =>
    rw [← h] at hsound
    exact hsound
  | draws parent? h =>
    rw [h] at hsound
    exact hsound.draw
  | @accepts parent? id p h _ hp hroom =>
    rw [h] at hsound hfree
    obtain ⟨hnone, hdrawn⟩ := hfree id (List.mem_singleton_self id)
    exact RegistrySound.registered hsound hp hroom parent? hdrawn hnone
  | returns h =>
    rw [h] at hsound
    exact hsound
  | removes h _ hp hmem =>
    rw [h] at hsound
    exact RegistrySound.withdrawn hsound hp hmem
  | drains h _ hw =>
    rw [h] at hsound
    exact hsound.beginShutdown hw
  | marks h =>
    rw [h] at hsound
    exact RegistrySound.tearDown hsound _ _
  | @ends purpose h =>
    rw [h] at hsound hclosing
    cases purpose with
    | destroy id => exact hsound
    | shutdown count =>
      -- the key may be released, since a process that is drained is shut down
      refine RegistrySound.releaseKey hsound _ fun p hp => ?_
      have hdown := hclosing (List.cons_ne_nil _ _)
      rw [isShutDown_eq hp] at hdown
      exact of_decide_eq_true hdown

/-- What a call has taken out it took out before, or it was a member until now. -/
theorem out_cases (h : Turn c w a) {id : InstanceId} (hid : id ∈ a.left (·.out)) :
    id ∈ c.point.stake.out ∨ id ∈ w.members c.process := by
  cases h with
  | goesOn p h => exact .inl (h ▸ hid)
  | removes _ _ hp hmem =>
    obtain rfl := List.mem_singleton.1 hid
    exact .inr (members_eq hp ▸ hmem)
  | drains _ _ hw =>
    obtain ⟨p, hp, rfl, -⟩ := beginShutdown_ok hw
    exact .inr (members_eq (live_ok.1 hp).1 ▸ List.mem_reverse.1 hid)
  | marks h =>
    rw [h]
    exact .inl (List.mem_cons_of_mem _ hid)
  | _ => cases hid

/-- What a call has drained it drained before, or the process is shut down just now. -/
theorem swept_cases (h : Turn c w a) (hswept : a.left (·.swept) ≠ []) :
    c.point.stake.swept ≠ [] ∨ a.world.isShutDown c.process = true := by
  cases h with
  | goesOn p h => exact .inl (h ▸ hswept)
  | @drains ids w' _ _ hw =>
    obtain ⟨p, hp, -, rfl⟩ := beginShutdown_ok hw
    refine .inr ?_
    rw [isShutDown_modifyProcess, if_pos rfl, (live_ok.1 hp).1]
    rfl
  | marks h =>
    rw [h]
    exact .inl hswept
  | _ => exact absurd rfl hswept

end Turn

end Turns

end Concurrent

end TieredState
