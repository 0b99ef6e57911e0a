import Mathlib.Data.Set.Card
import TieredState.World.Counts

/-!
# Reference counts

A table keeps an entry for an op tree only as long as it has references: the last one to go takes the
entry with it, and the next one to come makes it anew. None of this shows: each op tree's count is the
number that its own calls make, whatever other calls stand between them.

* `get_apply` — what a call does to each count.
* `Positive` — no entry is kept for an op tree without references.
* `counts_replayed` — what every sequence of calls answers, and the table that it leaves.
-/

namespace TieredState

/-- A call on a table of reference counts. -/
inductive RefCall where
  | increment (op : Nat)
  | decrement (op : Nat)
  deriving DecidableEq, Repr

namespace RefCall

/-- The op tree that the call is about. -/
def op : RefCall → Nat
  | increment op | decrement op => op

/-- What the call makes of a number of references. -/
def count : RefCall → Nat → Nat
  | increment _, n => n + 1
  | decrement _, n => n - 1

/-- Make the call: the count that it answers, and the table that it leaves. -/
def apply (c : RefCall) (r : OpRefTable) : Nat × OpRefTable :=
  match c with
  | increment op => r.increment op
  | decrement op => r.decrement op

/-- The number that the calls on one op tree make of none. -/
def tally (op : Nat) (calls : List RefCall) : Nat :=
  (calls.filter (·.op = op)).foldl (fun n c => c.count n) 0

/-- The latest call counts if it is about the op tree. -/
theorem tally_concat (op : Nat) (calls : List RefCall) (c : RefCall) :
    tally op (calls ++ [c]) = if c.op = op then c.count (tally op calls) else tally op calls := by
  unfold tally
  rw [List.filter_append, List.foldl_append]
  by_cases h : c.op = op <;> simp [h]

end RefCall

namespace OpRefTable

open RefCall

variable {r : OpRefTable}

/-! ## One call -/

/-- A reference that is taken is one more. -/
theorem increment_eq (r : OpRefTable) (op : Nat) :
    r.increment op = (r.get op + 1, ⟨r.counts.insert op (r.get op + 1)⟩) := rfl

/-- The answer is the count less one, and there is no entry for a count of zero. -/
theorem decrement_cases (r : OpRefTable) (op : Nat) :
    1 < r.get op ∧ r.decrement op = (r.get op - 1, ⟨r.counts.insert op (r.get op - 1)⟩) ∨
      r.get op ≤ 1 ∧ r.decrement op = (0, ⟨r.counts.erase op⟩) ∨
      r.counts.get? op = none ∧ r.decrement op = (0, r) := by
  unfold decrement get
  cases hget : r.counts.get? op with
  | none => exact .inr (.inr ⟨rfl, rfl⟩)
  | some n =>
    by_cases hn : 1 < n
    · exact .inl ⟨hn, if_pos hn⟩
    · exact .inr (.inl ⟨Nat.le_of_not_lt hn, if_neg hn⟩)

/-- A reference that is taken is one to its own op tree. -/
theorem get_increment (r : OpRefTable) (op j : Nat) :
    (r.increment op).2.get j = if j = op then r.get op + 1 else r.get j := by
  rw [increment_eq]
  unfold get
  dsimp only
  rw [Table.get?_insert]
  split <;> rfl

/-- A reference that is released was one to its own op tree, and below zero there are none. -/
theorem get_decrement (r : OpRefTable) (op j : Nat) :
    (r.decrement op).2.get j = if j = op then r.get op - 1 else r.get j := by
  rcases decrement_cases r op with ⟨-, heq⟩ | ⟨hle, heq⟩ | ⟨hnone, heq⟩ <;> rw [heq]
  · unfold get
    dsimp only
    rw [Table.get?_insert]
    split <;> rfl
  · have hzero : r.get op - 1 = 0 := by omega
    rw [hzero]
    unfold get
    dsimp only
    rw [Table.get?_erase]
    split <;> rfl
  · -- an op tree without an entry stays without one
    have hzero : r.get op = 0 := by
      unfold get
      rw [hnone]
      rfl
    split
    · next h => rw [h, hzero]
    · rfl

/-- A call changes the count that it is about, and no other. -/
theorem get_apply (c : RefCall) (r : OpRefTable) (op : Nat) :
    (c.apply r).2.get op = if c.op = op then c.count (r.get op) else r.get op := by
  cases c with
  | increment op' =>
    refine (get_increment r op' op).trans ?_
    by_cases h : op = op'
    · subst h
      simp [RefCall.op, RefCall.count]
    · simp [RefCall.op, h, Ne.symm h]
  | decrement op' =>
    refine (get_decrement r op' op).trans ?_
    by_cases h : op = op'
    · subst h
      simp [RefCall.op, RefCall.count]
    · simp [RefCall.op, h, Ne.symm h]

/-- It answers the count that it leaves. -/
theorem apply_fst (c : RefCall) (r : OpRefTable) : (c.apply r).1 = c.count (r.get c.op) := by
  cases c with
  | increment op => rfl
  | decrement op =>
    show (r.decrement op).1 = r.get op - 1
    rcases decrement_cases r op with ⟨-, heq⟩ | ⟨hle, heq⟩ | ⟨hnone, heq⟩ <;> rw [heq]
    · show 0 = r.get op - 1
      omega
    · unfold get
      rw [hnone]
      rfl

/-! ## Entries -/

/-- Every entry is of an op tree with references. -/
def Positive (r : OpRefTable) : Prop := ∀ op n, r.counts.get? op = some n → 0 < n

theorem positive_empty : ({} : OpRefTable).Positive := fun _ _ h => by cases h

/-- A call leaves no entry without references. -/
theorem Positive.apply (h : r.Positive) (c : RefCall) : (c.apply r).2.Positive := by
  have hinsert : ∀ op k, 0 < k → (⟨r.counts.insert op k⟩ : OpRefTable).Positive := by
    intro op k hk j n hget
    rw [Table.get?_insert] at hget
    split at hget
    · rwa [← Option.some.inj hget]
    · exact h j n hget
  cases c with
  | increment op => exact hinsert op _ (Nat.succ_pos _)
  | decrement op =>
    show (r.decrement op).2.Positive
    rcases decrement_cases r op with ⟨hlt, heq⟩ | ⟨-, heq⟩ | ⟨-, heq⟩ <;> rw [heq]
    · exact hinsert op _ (by omega)
    · intro j n hget
      dsimp only at hget
      rw [Table.get?_erase] at hget
      split at hget
      · cases hget
      · exact h j n hget
    · exact h

/-- There is an entry for exactly the op trees with references. -/
theorem Positive.mem_keys (h : r.Positive) (op : Nat) : op ∈ r.counts.keys ↔ 0 < r.get op := by
  rw [Table.mem_keys]
  unfold get
  constructor
  · rintro ⟨n, hn⟩
    rw [hn]
    exact h op n hn
  · intro hpos
    cases hget : r.counts.get? op with
    | some n => exact ⟨n, rfl⟩
    | none =>
      rw [hget] at hpos
      exact absurd hpos (Nat.lt_irrefl 0)

/-- The size of the table is the number of op trees with references. -/
theorem Positive.size_eq (h : r.Positive) : r.size = {op | 0 < r.get op}.ncard := by
  have hset : {op | 0 < r.get op} = ↑(r.counts.keys.toFinset) := by
    ext op
    simp only [Set.mem_ofPred_eq, Finset.mem_coe, List.mem_toFinset]
    exact (h.mem_keys op).symm
  have hcard : r.counts.keys.toFinset.card = r.counts.keys.length :=
    List.toFinset_card_of_nodup r.counts.nodup
  rw [hset, Set.ncard_coe_finset, hcard]
  exact (List.length_map _).symm

/-- The table is empty if no op tree has references. -/
theorem Positive.isEmpty_iff (h : r.Positive) : r.isEmpty = true ↔ ∀ op, r.get op = 0 := by
  have hkeys : r.isEmpty = true ↔ r.counts.keys = [] :=
    List.isEmpty_iff.trans List.map_eq_nil_iff.symm
  rw [hkeys, List.eq_nil_iff_forall_not_mem]
  refine forall_congr' fun op => ?_
  rw [h.mem_keys, Nat.not_lt, Nat.le_zero]

/-! ## Sequences of calls -/

/-- Make calls one after the other: the counts that they answer, and the table that they leave. -/
def run (r : OpRefTable) : List RefCall → List Nat × OpRefTable
  | [] => ([], r)
  | c :: cs => ((c.apply r).1 :: (run (c.apply r).2 cs).1, (run (c.apply r).2 cs).2)

/-- Calls may be cut in two, and the second part goes on with the table of the first. -/
theorem run_append (r : OpRefTable) (before after : List RefCall) :
    r.run (before ++ after) =
      ((r.run before).1 ++ ((r.run before).2.run after).1, ((r.run before).2.run after).2) := by
  induction before generalizing r with
  | nil => rfl
  | cons c before ih =>
    rw [List.cons_append, run, ih]
    rfl

/-- Every call has its answer. -/
theorem length_run (r : OpRefTable) (calls : List RefCall) : (r.run calls).1.length = calls.length := by
  induction calls generalizing r with
  | nil => rfl
  | cons c calls ih => exact congrArg (· + 1) (ih _)

/-- Calls leave no entry without references. -/
theorem positive_run (h : r.Positive) (calls : List RefCall) : (r.run calls).2.Positive := by
  induction calls generalizing r with
  | nil => exact h
  | cons c calls ih => exact ih (h.apply c)

/-- The calls on one op tree are as if there were no others. -/
theorem get_run (calls : List RefCall) (op : Nat) :
    ((({} : OpRefTable).run calls).2).get op = tally op calls := by
  induction calls using List.reverseRecOn with
  | nil => rfl
  | append_singleton calls c ih =>
    rw [run_append, tally_concat, ← ih]
    exact get_apply c _ op

/-- Whatever calls are made on an empty table:

* each call answers what the calls on its op tree up to it make of none, and so does the table when it
  is asked afterwards;
* a call on one op tree leaves the counts of all others as they are;
* no count that is kept is zero, so there are as many entries as op trees with references, and none
  exactly when no op tree has any. -/
theorem counts_replayed (calls : List RefCall) :
    let answers := (({} : OpRefTable).run calls).1
    let r := (({} : OpRefTable).run calls).2
    answers.length = calls.length ∧
    (∀ before c after, calls = before ++ c :: after →
      answers[before.length]? = some (tally c.op (before ++ [c]))) ∧
    (∀ op, r.get op = tally op calls) ∧
    (∀ (c : RefCall) (op : Nat), c.op ≠ op → (c.apply r).2.get op = r.get op) ∧
    (∀ op n, r.counts.get? op = some n → 0 < n) ∧
    r.size = {op | 0 < tally op calls}.ncard ∧
    (r.isEmpty = true ↔ ∀ op, tally op calls = 0) := by
  have hpositive := positive_run positive_empty calls
  refine ⟨length_run _ _, ?_, get_run calls, fun c op hne => ?_, hpositive, ?_, ?_⟩
  · rintro before c after rfl
    rw [run_append, List.getElem?_append_right (Nat.le_of_eq (length_run _ _)), length_run, Nat.sub_self]
    show some (c.apply _).1 = _
    rw [apply_fst, get_run, tally_concat, if_pos rfl]
  · rw [get_apply, if_neg hne]
  · simp only [← get_run]
    exact hpositive.size_eq
  · simp only [← get_run]
    exact hpositive.isEmpty_iff

/-- An op tree that is released once too often, with a call on another one after it. -/
def releasedTwice : List RefCall := [.increment 7, .decrement 7, .decrement 7, .increment 9, .increment 7]

/-- A release too much is not owed: the next reference is the first one again. -/
theorem counts_released_twice :
    (({} : OpRefTable).run releasedTwice).1[4]? = some 1 ∧
      ((RefCall.decrement 9).apply (({} : OpRefTable).run releasedTwice).2).2.get 7 = 1 ∧
      (({} : OpRefTable).run releasedTwice).2.size = {op | 0 < tally op releasedTwice}.ncard := by
  obtain ⟨-, hanswers, hget, hothers, -, hsize, -⟩ := counts_replayed releasedTwice
  exact ⟨hanswers [.increment 7, .decrement 7, .decrement 7, .increment 9] _ [] rfl,
    (hothers (.decrement 9) 7 (by decide)).trans (hget 7), hsize⟩

end OpRefTable

end TieredState
