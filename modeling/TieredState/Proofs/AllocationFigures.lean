import Mathlib.Algebra.GroupWithZero.Nat
import Mathlib.Data.List.Induction
import Mathlib.Order.Bounds.Basic
import TieredState.World.Counts

/-!
# Figures on allocation

A release of more bytes than are in use leaves none in use, and what was released too much is
forgotten. So the bytes in use depend on the order of all calls. They are the greatest amount by
which the last calls, however many of them are taken, allocate more than they free.

* `bytesLive_apply` — what a call does to the bytes in use.
* `bytesLive_after` — the bytes in use after a sequence of calls, as the greatest balance of an end
  of the sequence.
* `bytesLive_eq_iff` — the bytes in use are the balance of all calls exactly when no beginning of the
  sequence frees more than it allocates.
* `figures_of_calls` — all three figures after every sequence of calls.
-/

namespace TieredState

/-- A call that reports to the figures on allocation. -/
inductive AllocCall where
  | alloc (bytes : Nat)
  | free (bytes : Nat)
  deriving DecidableEq, Repr

namespace AllocCall

/-- Make the call. -/
def apply (c : AllocCall) (s : AllocStats) : AllocStats :=
  match c with
  | alloc n => s.recordAlloc n
  | free n => s.recordFree n

def allocated? : AllocCall → Option Nat
  | alloc n => some n
  | free _ => none

def freed? : AllocCall → Option Nat
  | alloc _ => none
  | free n => some n

/-- The bytes that calls allocate, less those that they free. -/
def balance (calls : List AllocCall) : Int :=
  ((calls.filterMap allocated?).sum : Int) - ((calls.filterMap freed?).sum : Int)

@[simp] theorem balance_nil : balance [] = 0 := rfl

/-- Balances of calls add up. -/
theorem balance_append (a b : List AllocCall) : balance (a ++ b) = balance a + balance b := by
  simp only [balance, List.filterMap_append, List.sum_append]
  push_cast
  omega

@[simp] theorem balance_alloc (n : Nat) : balance [alloc n] = n := by
  simp [balance, List.filterMap_cons, allocated?, freed?]

@[simp] theorem balance_free (n : Nat) : balance [free n] = -n := by
  simp [balance, List.filterMap_cons, allocated?, freed?]

end AllocCall

namespace AllocStats

open AllocCall

/-- The figures after a sequence of calls. -/
def after (calls : List AllocCall) : AllocStats := calls.foldl (fun s c => c.apply s) {}

/-- The latest call is applied last. -/
theorem after_concat (calls : List AllocCall) (c : AllocCall) :
    after (calls ++ [c]) = c.apply (after calls) := by
  simp [after]

/-! ## Counts of calls -/

/-- Calls of each kind are counted, whatever their sizes. -/
theorem counts_after (calls : List AllocCall) :
    (after calls).allocations = (calls.filterMap allocated?).length ∧
      (after calls).frees = (calls.filterMap freed?).length := by
  induction calls using List.reverseRecOn with
  | nil => exact ⟨rfl, rfl⟩
  | append_singleton calls c ih =>
    obtain ⟨hallocs, hfrees⟩ := ih
    rw [after_concat]
    cases c with
    | alloc n => simp [apply, recordAlloc, allocated?, freed?, hallocs, hfrees]
    | free n => simp [apply, recordFree, allocated?, freed?, hallocs, hfrees]

/-! ## Bytes in use -/

/-- A call adds its balance to the bytes in use, but these never fall below zero. -/
theorem bytesLive_apply (c : AllocCall) (s : AllocStats) :
    ((c.apply s).bytesLive : Int) = max 0 (s.bytesLive + balance [c]) := by
  cases c with
  | alloc n =>
    rw [balance_alloc]
    simp only [apply, recordAlloc]
    omega
  | free n =>
    rw [balance_free]
    simp only [apply, recordFree]
    omega

/-- The bytes in use are the greatest balance of an end of the sequence, the empty one among them. -/
theorem bytesLive_after (calls : List AllocCall) :
    IsGreatest {d | ∃ last, last <:+ calls ∧ balance last = d} ((after calls).bytesLive : Int) := by
  -- The calls are taken in order: an end of the longer sequence is either empty or an end of the
  -- shorter one with the new call behind it.
  induction calls using List.reverseRecOn with
  | nil =>
    constructor
    · exact ⟨[], List.suffix_refl _, rfl⟩
    · rintro d ⟨last, hlast, rfl⟩
      rw [List.suffix_nil.1 hlast]
      exact Int.le_refl 0
  | append_singleton calls c ih =>
    obtain ⟨⟨best, hbest, heq⟩, hupper⟩ := ih
    rw [after_concat, bytesLive_apply]
    constructor
    · rcases Int.le_total 0 (balance best + balance [c]) with hpos | hneg
      · -- the best end so far stays the best with the call behind it
        refine ⟨best ++ [c], List.suffix_concat_iff.2 (.inr ⟨best, rfl, hbest⟩), ?_⟩
        rw [balance_append, ← heq]
        omega
      · -- the call frees more than was in use, and nothing is left to count
        refine ⟨[], List.nil_suffix, ?_⟩
        rw [balance_nil, ← heq]
        omega
    · rintro d ⟨last, hlast, rfl⟩
      rcases List.suffix_concat_iff.1 hlast with rfl | ⟨rest, rfl, hrest⟩
      · rw [balance_nil]
        omega
      · have hle : balance rest ≤ (after calls).bytesLive := hupper ⟨rest, hrest, rfl⟩
        rw [balance_append]
        omega

/-- What was allocated and not freed is in use. -/
theorem balance_le_bytesLive (calls : List AllocCall) :
    balance calls ≤ (after calls).bytesLive :=
  (bytesLive_after calls).2 ⟨calls, List.suffix_refl _, rfl⟩

/-- The figure says more than that exactly if at some time more was freed than had been allocated. -/
theorem bytesLive_eq_iff (calls : List AllocCall) :
    ((after calls).bytesLive : Int) = balance calls ↔
      ∀ first, first <+: calls → 0 ≤ balance first := by
  constructor
  · rintro heq first ⟨rest, rfl⟩
    have hle : balance rest ≤ (after (first ++ rest)).bytesLive :=
      (bytesLive_after (first ++ rest)).2 ⟨rest, List.suffix_append _ _, rfl⟩
    rw [balance_append] at heq
    omega
  · intro hfirst
    have hge := balance_le_bytesLive calls
    obtain ⟨last, ⟨first, rfl⟩, heq⟩ := (bytesLive_after calls).1
    have hpos : 0 ≤ balance first := hfirst first (List.prefix_append _ _)
    rw [balance_append] at hge ⊢
    omega

/-- Whatever calls report to fresh figures:

* allocations and releases are counted;
* the bytes in use are the greatest number of bytes by which an end of the sequence, be it empty,
  allocates more than it frees;
* so they are never less than all that was allocated less all that was freed, and they are that much
  exactly when no beginning of the sequence frees more than it allocates. -/
theorem figures_of_calls (calls : List AllocCall) :
    (after calls).allocations = (calls.filterMap allocated?).length ∧
    (after calls).frees = (calls.filterMap freed?).length ∧
    IsGreatest {d | ∃ last, last <:+ calls ∧ balance last = d} ((after calls).bytesLive : Int) ∧
    balance calls ≤ (after calls).bytesLive ∧
    (((after calls).bytesLive : Int) = balance calls ↔
      ∀ first, first <+: calls → 0 ≤ balance first) := by
  obtain ⟨hallocs, hfrees⟩ := counts_after calls
  exact ⟨hallocs, hfrees, bytesLive_after calls, balance_le_bytesLive calls, bytesLive_eq_iff calls⟩

/-- Two bytes are released too much, and the three allocated afterwards are in use all the same. -/
example : (after [.alloc 5, .free 7, .alloc 3]).bytesLive = 3 ∧
    balance [.alloc 5, .free 7, .alloc 3] = 1 := by decide

end AllocStats

end TieredState
