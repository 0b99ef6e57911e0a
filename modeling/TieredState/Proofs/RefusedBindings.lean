import TieredState.Proofs.Sparing

/-!
# Bindings that could not be changed

A thread is bound to another instance, or to none, only when the binding that it has is in use by no
closure under way. A call that is refused leaves alone what the thread keeps. One thing may go with it
nevertheless: each bind first drops what the thread keeps for processes whose bindings are void, and a
bind that is refused in the end has dropped that too.

* `Undisturbed` — what a refused call leaves alone.
* `Alike` — worlds in which a thread binds in the same way, although it keeps more for such processes in
  one of them. It survives the end of closures, so the call can be made again after them.
* `refused_rebinding` — when a call is refused, and what it leaves.
-/

namespace TieredState

namespace Table

variable {κ α : Type}

/-- Tables with the same entries are the same. -/
theorem ext_entries {a b : Table κ α} (h : a.entries = b.entries) : a = b := by
  cases a
  cases b
  cases h
  rfl

theorem entries_filter (a : Table κ α) (p : κ → α → Bool) :
    (a.filter p).entries = a.entries.filter fun e => p e.1 e.2 := rfl

/-- Of two filters one after the other, the weaker one is not needed. -/
theorem filter_filter_of_imp {p q : κ → α → Bool} (h : ∀ k v, q k v = true → p k v = true)
    (a : Table κ α) : (a.filter p).filter q = a.filter q := by
  refine ext_entries ?_
  rw [entries_filter, entries_filter, entries_filter, List.filter_filter]
  refine List.filter_congr fun e _ => ?_
  cases hq : q e.1 e.2 with
  | false => rfl
  | true => rw [h e.1 e.2 hq, Bool.and_self]

/-- It does not matter which of two conditions is put to the entries first. -/
theorem filter_comm (a : Table κ α) (p q : κ → α → Bool) :
    (a.filter p).filter q = (a.filter q).filter p := by
  refine ext_entries ?_
  rw [entries_filter, entries_filter, entries_filter, entries_filter, List.filter_filter,
    List.filter_filter]
  exact List.filter_congr fun e _ => Bool.and_comm _ _

variable [DecidableEq κ]

theorem entries_insert (a : Table κ α) (k : κ) (v : α) :
    (a.insert k v).entries = (k, v) :: (a.erase k).entries := rfl

theorem insert_congr {a b : Table κ α} {k : κ} (h : a.erase k = b.erase k) (v : α) :
    a.insert k v = b.insert k v := by
  refine ext_entries ?_
  rw [entries_insert, entries_insert, h]

/-- An entry that is inserted and erased again leaves nothing behind. -/
theorem erase_insert (a : Table κ α) (k : κ) (v : α) : (a.insert k v).erase k = a.erase k := by
  refine ext_entries ?_
  unfold erase
  rw [entries_filter, entries_insert, List.filter_cons_of_neg (a := (k, v)) (by simp)]
  exact congrArg entries (filter_filter_of_imp (p := fun j _ => j ≠ k) (fun _ _ h => h) a)

/-- An entry that the condition holds of may be inserted before or after the others are sorted out.
-/
theorem filter_insert_of_pos {p : κ → α → Bool} {k : κ} {v : α} (h : p k v = true) (a : Table κ α) :
    (a.insert k v).filter p = (a.filter p).insert k v := by
  refine ext_entries ?_
  rw [entries_filter, entries_insert, List.filter_cons_of_pos (a := (k, v)) h, entries_insert]
  exact congrArg ((k, v) :: ·) (congrArg entries (filter_comm a _ p))

/-- Entries under different keys do not concern each other. -/
theorem erase_insert_of_ne {j k : κ} (h : k ≠ j) (a : Table κ α) (v : α) :
    (a.insert k v).erase j = (a.erase j).insert k v :=
  filter_insert_of_pos (p := fun i _ => i ≠ j) (decide_eq_true h) a

/-- An entry that the condition fails for only takes the place of the one before it. -/
theorem filter_insert_of_neg {p : κ → α → Bool} {k : κ} {v : α} (h : ¬ p k v = true) (a : Table κ α) :
    (a.insert k v).filter p = (a.filter p).erase k := by
  refine ext_entries ?_
  rw [entries_filter, entries_insert, List.filter_cons_of_neg (a := (k, v)) h]
  exact congrArg entries (filter_comm a _ p)

/-- Nothing is there to be erased. -/
theorem erase_of_get?_eq_none {a : Table κ α} {k : κ} (h : a.get? k = none) : a.erase k = a := by
  refine ext_entries (List.filter_eq_self.2 fun e he => decide_eq_true ?_)
  rintro rfl
  rw [get?_eq_some.2 he] at h
  cases h

/-- What a filter drops afterwards need not be there when a value is changed. -/
theorem filter_modify_filter {p q : κ → α → Bool} {k : κ} {f : α → α}
    (h : ∀ j v, q j v = true → p j v = true) (hf : ∀ v, q k (f v) = true → p k v = true)
    (a : Table κ α) : ((a.filter p).modify k f).filter q = (a.modify k f).filter q := by
  have hfilter := filter_filter_of_imp h a
  unfold modify
  rw [get?_filter]
  cases hget : a.get? k with
  | none => exact hfilter
  | some v =>
    by_cases hp : p k v = true
    · rw [Option.filter_some_pos hp]
      by_cases hq : q k (f v) = true
      · rw [filter_insert_of_pos hq, filter_insert_of_pos hq, hfilter]
      · rw [filter_insert_of_neg hq, filter_insert_of_neg hq, hfilter]
    · -- the value is dropped in the end, whether it is changed before or not
      rw [Option.filter_some_neg (Bool.eq_false_iff.2 hp), filter_insert_of_neg fun hq => hp (hf v hq)]
      refine hfilter.trans (erase_of_get?_eq_none ?_).symm
      rw [get?_filter, hget, Option.filter_some_neg (Bool.eq_false_iff.2 fun hq => hp (h k v hq))]

end Table

namespace Thread

variable {th th' : Thread} {void : Token → Bool}

/-- The thread with a storage given back, which may have no binding any more. -/
def freed (th : Thread) (s : StorageId) : Thread :=
  { th with storages := th.storages.modify s fun st => { st with borrowed := false } }

theorem owns_congr (h : th'.slots = th.slots) (s : StorageId) : th'.owns s = th.owns s := by
  unfold owns
  rw [h]

/-- The storage belongs to a binding that is void. -/
def HoldsVoid (th : Thread) (void : Token → Bool) (s : StorageId) : Prop :=
  ∃ tok b, void tok = true ∧ th.binding? tok = some b ∧ b.storage = s

/-- A thread has lost nothing but bindings that are void, with their storages and what waits beside
them. -/
structure Sheds (void : Token → Bool) (th th' : Thread) : Prop where
  slots : ∀ tok, void tok = false → th'.slots.get? tok = th.slots.get? tok
  bindings : ∀ tok b, th'.binding? tok = some b → th.binding? tok = some b
  storages : ∀ s, th'.storages.get? s = th.storages.get? s ∨
    th'.storages.get? s = none ∧ th.HoldsVoid void s
  held : th'.held = th.held

namespace Sheds

/-- A thread that stays as it is has lost nothing. -/
theorem refl (th : Thread) : Sheds void th th :=
  ⟨fun _ _ => rfl, fun _ _ h => h, fun _ => .inl rfl, rfl⟩

/-- What a thread holds has nothing to do with what it has lost. -/
theorem withHeld (h : Sheds void th th') (f : Held → Held) :
    Sheds void { th with held := f th.held } { th' with held := f th'.held } :=
  ⟨h.slots, h.bindings, h.storages, congrArg f h.held⟩

/-- To give a storage back is the same with void bindings and without. -/
theorem freed (h : Sheds void th th') (s : StorageId) : Sheds void (th.freed s) (th'.freed s) where
  slots := h.slots
  bindings := h.bindings
  storages s' := by
    show (th'.storages.modify s _).get? s' = (th.storages.modify s _).get? s' ∨
      (th'.storages.modify s _).get? s' = none ∧ _
    rw [Table.get?_modify, Table.get?_modify]
    rcases h.storages s' with hsame | ⟨hnone, hvoid⟩
    · rw [hsame]
      exact .inl rfl
    · rw [hnone]
      refine .inr ⟨?_, hvoid⟩
      split <;> rfl
  held := h.held

/-- Only a binding that is void may have its storage on one side alone. -/
theorem owns_or (h : Sheds void th th') (s : StorageId) :
    th'.owns s = th.owns s ∨ th'.owns s = false ∧ th.HoldsVoid void s := by
  cases hold : th.owns s with
  | false =>
    refine .inl (Bool.eq_false_iff.2 fun hnew => ?_)
    obtain ⟨tok, b, hb, hstorage⟩ := owns_iff.1 hnew
    rw [owns_iff.2 ⟨tok, b, h.bindings tok b hb, hstorage⟩] at hold
    cases hold
  | true =>
    obtain ⟨tok, b, hb, hstorage⟩ := owns_iff.1 hold
    cases hrel : void tok with
    | false => exact .inl (owns_iff.2 ⟨tok, b, (binding?_congr (h.slots tok hrel)).trans hb, hstorage⟩)
    | true =>
      cases hnew : th'.owns s with
      | true => exact .inl rfl
      | false => exact .inr ⟨rfl, tok, b, hrel, hb, hstorage⟩

/-- What belongs to no binding and is not in use goes on both sides. -/
theorem tidy (h : Sheds void th th') : Sheds void th.tidy th'.tidy where
  slots := h.slots
  bindings := h.bindings
  storages s := by
    show (th'.storages.filter _).get? s = (th.storages.filter _).get? s ∨
      (th'.storages.filter _).get? s = none ∧ _
    rw [Table.get?_filter, Table.get?_filter]
    rcases h.storages s with hsame | ⟨hnone, hvoid⟩
    · rw [hsame]
      rcases h.owns_or s with howns | ⟨hnot, hvoid⟩
      · rw [howns]
        exact .inl rfl
      · -- the storage stays on both sides as long as it is in use
        cases hst : th.storages.get? s with
        | none => exact .inl rfl
        | some st =>
          cases hborrowed : st.borrowed with
          | true =>
            rw [Option.filter_some_pos (by rw [hborrowed]; rfl),
              Option.filter_some_pos (by rw [hborrowed]; rfl)]
            exact .inl rfl
          | false => exact .inr ⟨Option.filter_some_neg (by rw [hborrowed, hnot]; rfl), hvoid⟩
    · rw [hnone]
      exact .inr ⟨rfl, hvoid⟩
  held := h.held

end Sheds

end Thread

namespace World

open Thread

variable {w w' : World} {t t' : ThreadId} {tok : Token} {id : InstanceId} {id? : Option InstanceId}
  {th : Thread} {s : StorageId} {e : AccessError}

/-! ## Pruning -/

/-- Storages that are owned after pruning were owned before. -/
theorem owns_of_pruneSlots (h : (w.pruneSlots th).owns s = true) : th.owns s = true := by
  obtain ⟨tok, b, hb, rfl⟩ := owns_iff.1 h
  rw [binding?_pruneSlots] at hb
  split at hb
  · cases hb
  · exact owns_iff.2 ⟨tok, b, hb, rfl⟩

/-- Whether a storage is kept when the slots of a thread are pruned. -/
def retains (w : World) (th : Thread) (s : StorageId) (st : ThreadStorage) : Bool :=
  st.borrowed || (w.pruneSlots th).owns s

theorem storages_of_pruneSlots (w : World) (th : Thread) :
    (w.pruneSlots th).storages = th.storages.filter (w.retains th) := rfl

/-- Threads that differ only in what is void are the same after pruning. -/
theorem pruneSlots_congr {th' : Thread} (hslots : (w.pruneSlots th').slots = (w.pruneSlots th).slots)
    (hstorages : th'.storages.filter (w.retains th) = th.storages.filter (w.retains th))
    (hheld : th'.held = th.held) (hnext : th'.nextStorage = th.nextStorage) :
    w.pruneSlots th' = w.pruneSlots th := by
  have hretains : w.retains th' = w.retains th := by
    funext s st
    unfold retains
    rw [owns_congr hslots]
  have hstorages' : (w.pruneSlots th').storages = (w.pruneSlots th).storages := by
    rw [storages_of_pruneSlots, storages_of_pruneSlots, hretains, hstorages]
  have heta : ∀ a b : Thread, a.slots = b.slots → a.storages = b.storages → a.held = b.held →
      a.nextStorage = b.nextStorage → a = b := by
    rintro ⟨⟩ ⟨⟩ rfl rfl rfl rfl
    rfl
  exact heta _ _ hslots hstorages' hheld hnext

/-- Slots that are pruned once need not be pruned again. -/
theorem slots_pruneSlots_twice (w : World) (th : Thread) :
    (w.pruneSlots (w.pruneSlots th)).slots = (w.pruneSlots th).slots :=
  Table.filter_filter_of_imp (p := fun tok _ => !w.isReleased tok) (fun _ _ h => h) th.slots

/-- Locks do not matter to it. -/
theorem pruneSlots_held (w : World) (th : Thread) (held : Held) :
    w.pruneSlots { w.pruneSlots th with held } = w.pruneSlots { th with held } :=
  pruneSlots_congr (slots_pruneSlots_twice w th)
    (Table.filter_filter_of_imp (p := w.retains th) (fun _ _ h => h) th.storages) rfl rfl

/-- What is dropped at the end of a use may be dropped before. -/
theorem pruneSlots_freed (w : World) (th : Thread) (s : StorageId) :
    w.pruneSlots ((w.pruneSlots th).freed s).tidy = w.pruneSlots (th.freed s).tidy := by
  refine pruneSlots_congr (slots_pruneSlots_twice w th) ?_ rfl rfl
  -- what is retained in the end is also retained by what goes before
  have hweak : ∀ s st, w.retains th s st = true → (st.borrowed || th.owns s) = true := by
    intro s st h
    unfold retains at h
    rw [Bool.or_eq_true] at h ⊢
    exact h.imp_right owns_of_pruneSlots
  show (Table.filter (Table.modify (th.storages.filter (w.retains th)) s _) (w.retains th)).filter
      (w.retains th) = ((th.storages.modify s _).filter fun s st => st.borrowed || th.owns s).filter
      (w.retains th)
  rw [Table.filter_filter_of_imp (fun _ _ h => h), Table.filter_filter_of_imp hweak]
  refine Table.filter_modify_filter (fun _ _ h => h) (fun st h => ?_) th.storages
  unfold retains at h ⊢
  rw [Bool.or_eq_true] at h ⊢
  exact .inr (h.resolve_left Bool.false_ne_true)

/-- A storage goes only with the binding that it belongs to. -/
theorem storages_pruneSlots_or (hth : th.Tidy) (s : StorageId) :
    (w.pruneSlots th).storages.get? s = th.storages.get? s ∨
      (w.pruneSlots th).storages.get? s = none ∧
        th.HoldsVoid w.isReleased s := by
  rw [storages_of_pruneSlots, Table.get?_filter]
  cases hget : th.storages.get? s with
  | none => exact .inl rfl
  | some st =>
    by_cases hretains : w.retains th s st = true
    · exact .inl (Option.filter_some_pos hretains)
    · refine .inr ⟨Option.filter_some_neg (Bool.eq_false_iff.2 hretains), ?_⟩
      unfold retains at hretains
      rw [Bool.or_eq_true, not_or] at hretains
      obtain ⟨hfree, howns⟩ := hretains
      -- the storage is not in use, so a binding has it, and that one is void
      obtain ⟨tok, b, hb, rfl⟩ := owns_iff.1 (hth s (by
        unfold usage
        rw [hget, Option.map_some, Bool.eq_false_iff.2 hfree]))
      refine ⟨tok, b, ?_, hb, rfl⟩
      by_contra hrel
      refine howns (owns_iff.2 ⟨tok, b, ?_, rfl⟩)
      rw [binding?_pruneSlots, if_neg hrel, hb]

/-- Pruning takes only void bindings, with all that goes with them. -/
theorem sheds_pruneSlots (hth : th.Tidy) : Sheds w.isReleased th (w.pruneSlots th) where
  slots tok hrel := by rw [slots_pruneSlots, hrel, if_neg Bool.false_ne_true]
  bindings tok b hb := by
    rw [binding?_pruneSlots] at hb
    split at hb
    · cases hb
    · exact hb
  storages := storages_pruneSlots_or hth
  held := rfl

/-! ## The two calls on a thread's binding -/

/-- Bind the thread to an instance of the process, or to none. Give the instance that it is bound to
now or, in the second case, the one that it was bound to. -/
def rebind (w : World) (t : ThreadId) (tok : Token) :
    Option InstanceId → Except AccessError (Option InstanceId) × World
  | some id => let (r, w') := w.bind t tok id; (r.map (some ·.target), w')
  | none =>
    match w.release t tok with
    | .ok (id?, w') => (.ok id?, w')
    | .error e => (.error e, w)

/-- The process is live, and so is the instance, which belongs to it. -/
structure Admits (w : World) (tok : Token) (id? : Option InstanceId) : Prop where
  process : ∃ p, w.live tok = .ok p
  owner : ∀ id, id? = some id → w.checkOwner tok id = .ok ()
  alive : ∀ id, id? = some id → w.isLive id = true

/-- What binding comes to, for a thread whose slots are pruned. -/
def boundTo (w : World) (th : Thread) (tok : Token) (id : InstanceId) :
    Except AccessError Handle × Thread :=
  let slot := (th.slots.get? tok).getD {}
  match slot.binding? with
  | none => (.ok (w.startBinding th tok slot id).1, (w.startBinding th tok slot id).2)
  | some b =>
    if b.target = id then (.ok b, th)
    else
      match w.endBinding th slot b with
      | .error e => (.error e, th)
      | .ok (slot', th') => (.ok (w.startBinding th' tok slot' id).1, (w.startBinding th' tok slot' id).2)

/-- A thread is bound in two parts: its slots are pruned, and then the binding is made or refused.
-/
theorem bindThread_eq (w : World) (t : ThreadId) (tok : Token) (id : InstanceId) :
    w.bindThread t tok id = ((w.boundTo (w.pruneSlots (w.thread t)) tok id).1,
      w.setThread t (w.boundTo (w.pruneSlots (w.thread t)) tok id).2) := by
  unfold bindThread boundTo
  dsimp only
  cases ((((w.pruneSlots (w.thread t)).slots.get? tok).getD {}).binding?) with
  | none => rfl
  | some b =>
    dsimp only
    by_cases htarget : b.target = id
    · rw [if_pos htarget, if_pos htarget]
    · rw [if_neg htarget, if_neg htarget]
      cases w.endBinding (w.pruneSlots (w.thread t))
        (((w.pruneSlots (w.thread t)).slots.get? tok).getD {}) b <;> rfl

/-- Where there is no slot there is no binding. -/
theorem binding?_getD (th : Thread) (tok : Token) :
    ((th.slots.get? tok).getD {}).binding? = th.binding? tok := by
  unfold binding?
  cases th.slots.get? tok <;> rfl

/-- Binding is refused for a binding to another instance that is in use, and leaves the thread alone
then. -/
theorem boundTo_error :
    (w.boundTo th tok id).1 = .error e ↔ e = .reentrant ∧
      ∃ b, th.binding? tok = some b ∧ b.target ≠ id ∧ th.usage b.storage = some true := by
  unfold boundTo
  dsimp only
  rw [← binding?_getD]
  -- only from another binding that is in use the thread cannot be moved
  cases hb : ((th.slots.get? tok).getD {}).binding? with
  | none => exact ⟨fun h => (by cases h), fun h => by obtain ⟨-, b, hb', -⟩ := h; cases hb'⟩
  | some b =>
    dsimp only
    split
    · next htarget =>
      refine ⟨fun h => (by cases h), fun h => ?_⟩
      obtain ⟨-, c, hc, hne, -⟩ := h
      obtain rfl := Option.some.inj hc
      exact absurd htarget hne
    · next htarget =>
      split
      · next e' hend =>
        obtain ⟨rfl, hused⟩ := endBinding_error hend
        refine ⟨fun h => ⟨(Except.error.inj h).symm, b, rfl, htarget, hused⟩, fun h => ?_⟩
        rw [h.1]
      · next hend =>
        refine ⟨fun h => (by cases h), fun h => ?_⟩
        obtain ⟨-, c, hc, -, hused⟩ := h
        obtain rfl := Option.some.inj hc
        exact absurd hused (endBinding_free hend)

/-- A binding that is refused leaves the pruned thread as it was. -/
theorem boundTo_of_error (h : (w.boundTo th tok id).1 = .error e) : (w.boundTo th tok id).2 = th := by
  unfold boundTo at h ⊢
  dsimp only at h ⊢
  split at h
  · cases h
  · split at h
    · cases h
    · next htarget =>
      split at h
      · rw [if_neg htarget]
      · cases h

/-- Releasing is refused for a binding that is in use. -/
theorem unbindThread_eq_error :
    w.unbindThread t tok = .error e ↔ e = .reentrant ∧
      ∃ b, (w.thread t).binding? tok = some b ∧ (w.thread t).usage b.storage = some true := by
  refine ⟨unbindThread_error, ?_⟩
  rintro ⟨rfl, b, hb, hused⟩
  cases hr : w.unbindThread t tok with
  | error e => rw [(unbindThread_error hr).1]
  | ok r =>
    -- a binding that is ended is not in use
    obtain ⟨id?, w'⟩ := r
    rcases unbindThread_cases hr with ⟨hnone, -⟩ | ⟨c, hc, hfree, -⟩
    · rw [hb] at hnone
      cases hnone
    · rw [hb] at hc
      obtain rfl := Option.some.inj hc
      exact absurd hused hfree

/-- Past all checks, a call to bind comes to binding the thread. -/
theorem bind_of_admits (h : w.Admits tok (some id)) (t : ThreadId) :
    w.bind t tok id = w.bindThread t tok id := by
  obtain ⟨p, hp⟩ := h.process
  have halive : w.checkAlive id = .ok () := checkAlive_ok.2 (h.alive id rfl)
  unfold bind
  rw [hp, h.owner id rfl, halive]

/-- A process is refused because it is shut down, and for no other reason. -/
theorem live_error (h : w.live tok = .error e) : e = .shutDown := by
  unfold live at h
  split at h
  · exact (Except.error.inj h).symm
  · split at h
    · exact (Except.error.inj h).symm
    · cases h

/-- The owner of an instance is refused because it is another process. -/
theorem checkOwner_error (h : w.checkOwner tok id = .error e) : e = .foreignInstance id := by
  unfold checkOwner at h
  split at h
  · cases h
  · exact (Except.error.inj h).symm

/-- An instance is refused because it is dead. -/
theorem checkAlive_error (h : w.checkAlive id = .error e) : e = .instanceDestroyed id := by
  unfold checkAlive at h
  split at h
  · cases h
  · exact (Except.error.inj h).symm

/-- A bind that is not admitted is refused for another reason than storages in use. -/
theorem admits_of_bind (h : (w.bind t tok id).1 = .error .reentrant) : w.Admits tok (some id) := by
  unfold bind at h
  split at h
  · next hlive => cases (live_error hlive).symm.trans (Except.error.inj h)
  · next p hp =>
    split at h
    · next howner => cases (checkOwner_error howner).symm.trans (Except.error.inj h)
    · next howner =>
      split at h
      · next halive => cases (checkAlive_error halive).symm.trans (Except.error.inj h)
      · next halive =>
        refine ⟨⟨p, hp⟩, ?_, ?_⟩
        · rintro _ ⟨⟩
          exact howner
        · rintro _ ⟨⟩
          exact checkAlive_ok.1 halive

theorem rebind_some (w : World) (t : ThreadId) (tok : Token) (id : InstanceId) :
    w.rebind t tok (some id) = ((w.bind t tok id).1.map (some ·.target), (w.bind t tok id).2) := rfl

/-- An answer is given on, and so is an error. -/
theorem map_eq_error {ε α β : Type} {r : Except ε α} {f : α → β} {e : ε} :
    r.map f = .error e ↔ r = .error e := by
  cases r with
  | error e' => exact ⟨fun h => congrArg _ (Except.error.inj h), fun h => congrArg _ (Except.error.inj h)⟩
  | ok a => exact ⟨nofun, nofun⟩

/-- To ask for no binding fails exactly when the release of the binding does. -/
theorem rebind_none_error : (w.rebind t tok none).1 = .error e ↔ w.release t tok = .error e := by
  unfold rebind
  dsimp only
  cases w.release t tok with
  | error e' => exact ⟨fun h => congrArg _ (Except.error.inj h), fun h => congrArg _ (Except.error.inj h)⟩
  | ok r => exact ⟨nofun, nofun⟩

/-- A refused call leaves the world as it was, or prunes the slots of the thread. -/
theorem rebind_error (h : (w.rebind t tok id?).1 = .error e) : (w.rebind t tok id?).2 = w ∨
    ∃ id, id? = some id ∧ w.Admits tok (some id) ∧
      (w.rebind t tok id?).2 = w.setThread t (w.pruneSlots (w.thread t)) := by
  cases id? with
  | none =>
    have hrelease := rebind_none_error.1 h
    refine .inl ?_
    unfold rebind
    dsimp only
    rw [hrelease]
  | some id =>
    rw [rebind_some] at h ⊢
    have herror := map_eq_error.1 h
    rcases bind_cases w t tok id with ⟨e', hrefused⟩ | ⟨-, -, hbind⟩
    · rw [hrefused]
      exact .inl rfl
    · have hbound := herror
      rw [hbind, bindThread_eq] at hbound
      obtain ⟨rfl, -⟩ := boundTo_error.1 hbound
      refine .inr ⟨id, rfl, admits_of_bind herror, ?_⟩
      rw [hbind, bindThread_eq, boundTo_of_error hbound]

/-- A call that is admitted is refused when it would end a binding that is in use, and only then. -/
theorem rebind_eq_reentrant {uses : List (ThreadId × StorageId)} (he : w.Exact uses)
    (hrel : ∀ p, w.live tok = .ok p → w.isReleased tok = false) :
    (w.rebind t tok id?).1 = .error .reentrant ↔ w.Admits tok id? ∧
      ∃ b, (w.thread t).binding? tok = some b ∧ id? ≠ some b.target ∧ (t, b.storage) ∈ uses := by
  cases id? with
  | none =>
    rw [rebind_none_error]
    constructor
    · intro h
      cases hp : w.live tok with
      | error e =>
        unfold release at h
        rw [hp] at h
        cases (live_error hp).symm.trans (Except.error.inj h)
      | ok p =>
        unfold release at h
        rw [hp] at h
        obtain ⟨-, b, hb, hused⟩ := unbindThread_eq_error.1 h
        exact ⟨⟨⟨p, hp⟩, nofun, nofun⟩, b, hb, nofun, (he.used t b.storage).2 hused⟩
    · rintro ⟨⟨⟨p, hp⟩, -, -⟩, b, hb, -, hmem⟩
      unfold release
      rw [hp]
      exact unbindThread_eq_error.2 ⟨rfl, b, hb, (he.used t b.storage).1 hmem⟩
  | some id =>
    rw [rebind_some, map_eq_error]
    -- the process of a call that is admitted is live, so its slot is not pruned
    have hbound : w.Admits tok (some id) → ((w.bind t tok id).1 = .error .reentrant ↔
        ∃ b, (w.thread t).binding? tok = some b ∧ b.target ≠ id ∧ (t, b.storage) ∈ uses) := by
      intro hadmits
      obtain ⟨p, hp⟩ := hadmits.process
      have hkeeps := (upkeep_pruneSlots w (w.thread t)).keepsUses
      have hprune := binding?_pruneSlots w (w.thread t) tok
      rw [hrel p hp, if_neg Bool.false_ne_true] at hprune
      rw [bind_of_admits hadmits, bindThread_eq, boundTo_error, hprune]
      simp only [true_and, he.used, hkeeps _]
    constructor
    · intro h
      have hadmits := admits_of_bind h
      obtain ⟨b, hb, hne, hmem⟩ := (hbound hadmits).1 h
      exact ⟨hadmits, b, hb, fun heq => hne (Option.some.inj heq).symm, hmem⟩
    · rintro ⟨hadmits, b, hb, hne, hmem⟩
      exact (hbound hadmits).2 ⟨b, hb, fun heq => hne (congrArg some heq.symm), hmem⟩

/-! ## Worlds in which a thread binds in the same way -/

/-- The worlds differ in nothing but what the thread keeps, and in that only until its slots are
pruned. -/
structure Alike (t : ThreadId) (w w' : World) : Prop where
  elsewhere : ∃ threads, w' = { w with threads } ∧ threads.erase t = w.threads.erase t
  pruned : w.pruneSlots (w'.thread t) = w.pruneSlots (w.thread t)
  sheds : Sheds w.isReleased (w.thread t) (w'.thread t)

/-- Threads other than the one that is left out are looked up as before. -/
theorem thread_of_erase {threads : Table ThreadId Thread} (h : threads.erase t = w.threads.erase t)
    (hne : t' ≠ t) : ({ w with threads } : World).thread t' = w.thread t' := by
  have hget : (threads.erase t).get? t' = (w.threads.erase t).get? t' := by rw [h]
  rw [Table.get?_erase, Table.get?_erase, if_neg hne, if_neg hne] at hget
  unfold thread
  rw [hget]

namespace Alike

theorem refl (t : ThreadId) (w : World) : Alike t w w := ⟨⟨w.threads, rfl, rfl⟩, rfl, .refl _⟩

/-- Once the thread is written, no difference is left. -/
theorem setThread (h : Alike t w w') (th : Thread) : w'.setThread t th = w.setThread t th := by
  obtain ⟨⟨threads, rfl, herase⟩, -, -⟩ := h
  unfold World.setThread
  rw [Table.insert_congr herase]

/-- Pruning makes no difference to the next bind. -/
theorem prune (hth : (w.thread t).Tidy) : Alike t w (w.setThread t (w.pruneSlots (w.thread t))) where
  elsewhere := ⟨_, rfl, Table.erase_insert _ _ _⟩
  pruned := by
    rw [thread_setThread_self]
    exact w.pruneSlots_held (w.thread t) (w.thread t).held
  sheds := by
    rw [thread_setThread_self]
    exact sheds_pruneSlots hth

/-- Binding does the same in both, and leaves nothing of the difference. -/
theorem bindThread (h : Alike t w w') (tok : Token) (id : InstanceId) :
    w'.bindThread t tok id = w.bindThread t tok id := by
  have hset := h.setThread
  obtain ⟨⟨threads, rfl, -⟩, hpruned, -⟩ := h
  rw [bindThread_eq, bindThread_eq, hset]
  show ((w.boundTo (w.pruneSlots _) tok id).1, w.setThread t (w.boundTo (w.pruneSlots _) tok id).2) = _
  rw [hpruned]

/-- Worlds that are alike come to the same when the thread is bound. -/
theorem rebind (h : Alike t w w') (hadmits : w.Admits tok (some id)) :
    w'.rebind t tok (some id) = w.rebind t tok (some id) := by
  have hadmits' : w'.Admits tok (some id) := by
    obtain ⟨⟨threads, rfl, -⟩, -, -⟩ := h
    exact ⟨hadmits.process, hadmits.owner, hadmits.alive⟩
  rw [rebind_some, rebind_some, bind_of_admits hadmits, bind_of_admits hadmits', h.bindThread]

/-- A change of one thread that goes with pruning leaves no other difference. -/
theorem change {f : Thread → Thread}
    (hf : ∀ th, w.pruneSlots (f (w.pruneSlots th)) = w.pruneSlots (f th))
    (hsheds : ∀ th th', Sheds w.isReleased th th' → Sheds w.isReleased (f th) (f th'))
    (h : Alike t w w') (t' : ThreadId) :
    Alike t (w.setThread t' (f (w.thread t'))) (w'.setThread t' (f (w'.thread t'))) := by
  obtain ⟨⟨threads, rfl, herase⟩, hpruned, hshed⟩ := h
  -- the thread that may differ is pruned alike, and the others are the same
  by_cases heq : t' = t
  · subst heq
    refine ⟨⟨_, rfl, ?_⟩, ?_, ?_⟩
    · show (threads.insert t' _).erase t' = (w.threads.insert t' _).erase t'
      rw [Table.erase_insert, Table.erase_insert, herase]
    · rw [thread_setThread_self, thread_setThread_self]
      show w.pruneSlots (f _) = w.pruneSlots (f _)
      rw [← hf, hpruned, hf]
    · rw [thread_setThread_self, thread_setThread_self]
      exact hsheds _ _ hshed
  · -- another thread is the same in both
    rw [thread_of_erase herase heq]
    refine ⟨⟨_, rfl, ?_⟩, ?_, ?_⟩
    · show (threads.insert t' _).erase t = (w.threads.insert t' _).erase t
      rw [Table.erase_insert_of_ne heq, Table.erase_insert_of_ne heq, herase]
    · rw [thread_setThread, thread_setThread, if_neg (Ne.symm heq), if_neg (Ne.symm heq)]
      exact hpruned
    · rw [thread_setThread, thread_setThread, if_neg (Ne.symm heq), if_neg (Ne.symm heq)]
      exact hshed

/-- Worlds that are alike stay so when a lock is given back. -/
theorem giveBack (h : Alike t w w') (t' : ThreadId) (l : Lock) :
    Alike t (w.giveBack t' l) (w'.giveBack t' l) :=
  h.change (f := fun th => { th with held := th.held.release l })
    (fun th => w.pruneSlots_held th (th.held.release l)) (fun _ _ h => h.withHeld (·.release l)) t'

/-- Worlds that are alike stay so when a closure on a binding ends. -/
theorem endBorrow (h : Alike t w w') (t' : ThreadId) (s : StorageId) :
    Alike t (w.endBorrow t' s) (w'.endBorrow t' s) :=
  h.change (f := fun th => (th.freed s).tidy) (fun th => w.pruneSlots_freed th s)
    (fun _ _ h => (h.freed s).tidy) t'

end Alike

/-! ## What a refused call leaves alone -/

/-- What a call on a thread's binding leaves as it was when it is refused. -/
structure Undisturbed (w w' : World) (t : ThreadId) : Prop where
  elsewhere : ∃ threads, w' = { w with threads } ∧ ∀ x, x ≠ t → w'.thread x = w.thread x
  held : (w'.thread t).held = (w.thread t).held
  /-- The binding, and the variables that wait for the next ones. -/
  slots : ∀ tok, w.isReleased tok = false →
    (w'.thread t).slots.get? tok = (w.thread t).slots.get? tok
  contents : ∀ tok b, w.isReleased tok = false → (w.thread t).binding? tok = some b →
    (w'.thread t).storages.get? b.storage = (w.thread t).storages.get? b.storage
  /-- Whatever handle the thread has, an access through it works or fails as it would have done, unless
  the handle is to a binding that is void. -/
  handles : ∀ h, (w'.borrow t h).map (fun _ => ()) = (w.borrow t h).map (fun _ => ()) ∨
    (w.thread t).HoldsVoid w.isReleased h.storage ∧ w'.borrow t h = .error .noActiveInstance

/-- Nothing is disturbed where worlds are alike. -/
theorem Alike.undisturbed (h : Alike t w w') (hs : (w.thread t).Sound) : Undisturbed w w' t := by
  obtain ⟨⟨threads, rfl, herase⟩, -, hsheds⟩ := h
  refine ⟨⟨threads, rfl, fun x hne => thread_of_erase herase hne⟩, hsheds.held, hsheds.slots, ?_, ?_⟩
  · intro tok b hrel hb
    rcases hsheds.storages b.storage with hsame | ⟨-, tok', b', hvoid, hb', hstorage⟩
    · exact hsame
    · -- no binding under another process has the storage
      obtain rfl := hs.apart tok' tok b' b hb' hb hstorage
      rw [hrel] at hvoid
      cases hvoid
  · intro handle
    unfold borrow
    dsimp only
    -- the storage is looked up first, and everything else after it is the same
    rcases hsheds.storages handle.storage with hsame | ⟨hnone, hvoid⟩
    · rw [hsame]
      left
      cases (w.thread t).storages.get? handle.storage with
      | none => rfl
      | some st =>
        have hinstance : ({ w with threads } : World).handleInstance handle = w.handleInstance handle :=
          rfl
        dsimp only
        rw [hinstance]
        cases w.handleInstance handle with
        | error e => rfl
        | ok id => cases hborrowed : st.borrowed <;> rfl
    · rw [hnone]
      exact .inr ⟨hvoid, rfl⟩

end World

namespace Session

open World

variable {s s' : Session} {t : ThreadId}

/-- The end of a closure changes nothing but threads. -/
theorem threads_undo (s : Session) (b : Body) :
    ∃ threads, (s.undo b).world = { s.world with threads } := by
  unfold undo
  split <;> exact ⟨_, rfl⟩

/-- Worlds that are alike stay so when what a closure took is given back. -/
theorem alike_undo (h : Alike t s.world s'.world) (b : Body) :
    Alike t (s.undo b).world (s'.undo b).world := by
  unfold undo
  split
  · exact h.giveBack _ _
  · exact h.endBorrow _ _
  · exact h
  · exact h

/-- The ends of any number of closures. -/
theorem alike_undone (h : Alike t s.world s'.world) (closed : List Body) :
    Alike t (closed.foldl undo s).world (closed.foldl undo s').world := by
  induction closed generalizing s s' with
  | nil => exact h
  | cons b closed ih => exact ih (alike_undo h b)

/-- What threads keep stays in order when closures end. -/
theorem threadsSound_undone (h : s.world.ThreadsSound) (closed : List Body) :
    (closed.foldl undo s).world.ThreadsSound := by
  induction closed generalizing s with
  | nil => exact h
  | cons b closed ih =>
    refine ih ?_
    unfold undo
    split
    · exact h.of_upkeep fun t => (calm_giveBack _ _ _).upkeep t
    · exact h.endBorrow _ _
    · exact h
    · exact h

/-- The end of closures changes nothing but what threads keep. -/
theorem threads_undone (s : Session) (closed : List Body) :
    ∃ threads, (closed.foldl undo s).world = { s.world with threads } := by
  induction closed generalizing s with
  | nil => exact ⟨_, rfl⟩
  | cons b closed ih =>
    obtain ⟨threads, hworld⟩ := threads_undo s b
    obtain ⟨threads', hworld'⟩ := ih (s.undo b)
    exact ⟨threads', by rw [List.foldl_cons, hworld', hworld]⟩

/-! ## The calls of a session -/

/-- The call asks to bind the thread to an instance, or to none. -/
inductive Rebinds (s : Session) (ctx : Context) (tok : Token) : ProcessCall → Option InstanceId → Prop
  | bind {i : Name} {as? : Option Name} {id : InstanceId}
    (hkeep : s.instanceToKeep ctx (some tok) i = .ok id) : Rebinds s ctx tok (.bind i as?) (some id)
  | release : Rebinds s ctx tok .release none

/-- A session answers what the operation gives. When this is refused, only the world may have changed. -/
theorem plainProcessCall_of_rebinds {ctx : Context} {tok : Token} {c : ProcessCall}
    {id? : Option InstanceId} (h : s.Rebinds ctx tok c id?) (q : Process) :
    (s.plainProcessCall ctx tok q c).1 = answer .identity (s.world.rebind ctx.thread tok id?).1 ∧
    (s.plainProcessCall ctx tok q c).2.world = (s.world.rebind ctx.thread tok id?).2 ∧
    ∀ e, (s.world.rebind ctx.thread tok id?).1 = .error e → (s.plainProcessCall ctx tok q c).2 =
      s.withWorld (s.world.rebind ctx.thread tok id?).2 := by
  cases h with
  | @bind i as? id hkeep =>
    rw [rebind_some]
    simp only [plainProcessCall]
    rw [hkeep]
    dsimp only
    cases (s.world.bind ctx.thread tok id).1 with
    | ok h => exact ⟨rfl, world_keepHandle _ _ _ _, fun e he => by cases he⟩
    | error e => exact ⟨rfl, rfl, fun _ _ => rfl⟩
  | release =>
    simp only [plainProcessCall]
    unfold rebind
    dsimp only
    cases s.world.release ctx.thread tok with
    | ok r => exact ⟨rfl, rfl, fun e he => by cases he⟩
    | error e => exact ⟨rfl, rfl, fun _ _ => rfl⟩

end Session

namespace Machine

open World Session

variable {m : Machine}

/-- A call that binds a thread to an instance of a process or to none is refused, if it is admitted, when
it would end a binding that a closure under way uses, and only then. Whenever it is refused, all that the
thread keeps for processes whose bindings are not void, such as those that are not shut down, is as it
was, and so are all its handles to bindings that are not void. This is so at once and after the end of any
closures, and then the same call gives the same as if it were made for the first time. -/
theorem refused_rebinding (hm : Reachable settled m) (t : ThreadId) (tok : Token)
    (id? : Option InstanceId) :
    (∀ e, (m.session.world.rebind t tok id?).1 = .error e → ∀ closed : List Body,
      let w := (closed.foldl undo m.session).world
      let w' := (closed.foldl undo (m.session.withWorld (m.session.world.rebind t tok id?).2)).world
      Undisturbed w w' t ∧ w'.rebind t tok id? = w.rebind t tok id?) ∧
    ((m.session.world.rebind t tok id?).1 = .error .reentrant ↔ m.session.world.Admits tok id? ∧
      ∃ b, (m.session.world.thread t).binding? tok = some b ∧ id? ≠ some b.target ∧
        (t, b.storage) ∈ m.uses) ∧
    (∀ tok' p, m.session.world.live tok' = .ok p → m.session.world.isReleased tok' = false) ∧
    ∀ ctx q c, ctx.thread = t → m.session.Rebinds ctx tok c id? →
      (m.session.plainProcessCall ctx tok q c).1 =
        answer .identity (m.session.world.rebind t tok id?).1 ∧
      ∀ e, (m.session.world.rebind t tok id?).1 = .error e →
        (m.session.plainProcessCall ctx tok q c).2 =
          m.session.withWorld (m.session.world.rebind t tok id?).2 := by
  have hexact := exact_of_reachable hm
  have hsound := threadsSound_of_reachable hm
  have hrel : ∀ tok' p, m.session.world.live tok' = .ok p → m.session.world.isReleased tok' = false :=
    fun tok' p => (dated_of_reachable hm).not_released
  refine ⟨fun e herror closed => ?_, rebind_eq_reentrant hexact (hrel tok), hrel, ?_⟩
  · have hsound' := threadsSound_undone hsound closed t
    rcases rebind_error herror with hsame | ⟨id, rfl, hadmits, hpruned⟩
    · rw [hsame]
      exact ⟨(Alike.refl _ _).undisturbed hsound', rfl⟩
    · rw [hpruned]
      have halike : Alike t (closed.foldl undo m.session).world
          (closed.foldl undo (m.session.withWorld _)).world := alike_undone (.prune (hexact.tidy t)) closed
      refine ⟨halike.undisturbed hsound', halike.rebind ?_⟩
      -- the end of closures does not change what admits the call
      obtain ⟨threads, hworld⟩ := threads_undone m.session closed
      rw [hworld]
      exact ⟨hadmits.process, hadmits.owner, hadmits.alive⟩
  · rintro ctx q c rfl hrebinds
    obtain ⟨houtcome, -, hsession⟩ := plainProcessCall_of_rebinds hrebinds q
    exact ⟨houtcome, hsession⟩

/-- A program whose main thread is bound under two processes, with a handle `h` to the binding under the
first and a locale that waits under it. Another thread drops this process. Then the main thread tries to
change its binding under the second one, whose variables it uses. -/
def outlived : Machine :=
  start default default 0 [
    .call none (.start "q" none),
    .call none (.process "q" (.create (some "l"))),
    .call none (.process "q" (.create (some "i"))),
    .call none (.process "q" (.bind "l" none)),
    .closure none (.ofThread "q") [.call none (.focus (.setThread (.locale (some "fr"))))],
    .call none (.process "q" (.bind "i" (some "h"))),
    .call none (.start "p" none),
    .call none (.process "p" (.create (some "j"))),
    .call none (.process "p" (.create (some "k"))),
    .call none (.process "p" (.bind "j" none)),
    .call (some "a") (.dropProcess "q"),
    .closure none (.ofThread "p") [.call none (.process "p" (.bind "k" none))]]

/-- The bind is refused, and the handle to the binding under the first process, whose instance is live,
is to nothing any more; the locale that waited for another live instance is gone. -/
theorem lost_with_refused_bind :
    let w := (outlived.run 18).session.world
    let w' := (w.rebind .main ⟨2⟩ (some ⟨4⟩)).2
    Reachable settled (outlived.run 18) ∧
    (w.rebind .main ⟨2⟩ (some ⟨4⟩)).1 = .error .reentrant ∧
    (outlived.run 18).session.handles.get? (.main, "h") = some ⟨⟨2⟩, ⟨1⟩⟩ ∧
    (w.borrow .main ⟨⟨2⟩, ⟨1⟩⟩).map (fun _ => ()) = .ok () ∧
    (w'.borrow .main ⟨⟨2⟩, ⟨1⟩⟩).map (fun _ => ()) = .error .noActiveInstance ∧
    w.isLive ⟨1⟩ = true ∧
    (w.thread .main).retired? ⟨1⟩ ⟨1⟩ = some { locale? := some "fr" } ∧
    (w'.thread .main).retired? ⟨1⟩ ⟨1⟩ = none :=
  ⟨.of_run (by decide +kernel), by decide +kernel, by decide +kernel, by rfl, by rfl, by decide +kernel,
    by decide +kernel, by decide +kernel⟩

/-- The binding that could not be changed is in force, and after the end of the closure it can be
changed. -/
theorem rebound_after_closure :
    let w := (outlived.run 18).session.world
    let w' := (w.rebind .main ⟨2⟩ (some ⟨4⟩)).2
    (w.rebind .main ⟨2⟩ (some ⟨4⟩)).1 = .error .reentrant ∧
    (w'.thread .main).binding? ⟨2⟩ = some ⟨⟨3⟩, ⟨2⟩⟩ ∧
    ((w'.endBorrow .main ⟨2⟩).rebind .main ⟨2⟩ (some ⟨4⟩)).1 = .ok (some ⟨4⟩) := by
  have hm : Reachable settled (outlived.run 18) := .of_run (by decide +kernel)
  obtain ⟨hrefused, hreentrant, hlive, -⟩ := refused_rebinding hm .main ⟨2⟩ (some ⟨4⟩)
  have herror := hreentrant.2 ⟨⟨⟨_, rfl⟩, fun id h => by cases h; rfl, fun id h => by cases h; rfl⟩,
    ⟨⟨3⟩, ⟨2⟩⟩, by decide +kernel, by decide, by decide +kernel⟩
  refine ⟨herror, ?_, ?_⟩
  · obtain ⟨hundisturbed, -⟩ := hrefused _ herror []
    exact (Thread.binding?_congr (hundisturbed.slots ⟨2⟩ (by decide +kernel))).trans (by decide +kernel)
  · obtain ⟨-, hagain⟩ := hrefused _ herror
      [{ owner := .storage ⟨2⟩, context := { thread := .main }, pending := [] }]
    exact (congrArg Prod.fst hagain).trans (by decide +kernel)

end Machine

end TieredState
