import TieredState.Table

/-!
# Counts kept for a whole process

Reference counts of op trees that instances share, and figures on allocation.
-/

namespace TieredState

/-- Reference counts under the identity of an op tree. A tree without references has no entry. -/
structure OpRefTable where
  counts : Table Nat Nat := ∅
  deriving Inhabited

namespace OpRefTable

def get (r : OpRefTable) (op : Nat) : Nat := (r.counts.get? op).getD 0

/-- The number of op trees with references. -/
def size (r : OpRefTable) : Nat := r.counts.size

/-- Whether no op tree has references. -/
def isEmpty (r : OpRefTable) : Bool := r.counts.entries.isEmpty

/-- Add a reference and give the new count. -/
def increment (r : OpRefTable) (op : Nat) : Nat × OpRefTable :=
  (r.get op + 1, ⟨r.counts.insert op (r.get op + 1)⟩)

/-- Drop a reference and give the count that is left; an op tree without references stays so. -/
def decrement (r : OpRefTable) (op : Nat) : Nat × OpRefTable :=
  match r.counts.get? op with
  | some n => if 1 < n then (n - 1, ⟨r.counts.insert op (n - 1)⟩) else (0, ⟨r.counts.erase op⟩)
  | none => (0, r)

end OpRefTable

/-- Figures on allocation. -/
structure AllocStats where
  bytesLive : Nat := 0
  allocations : Nat := 0
  frees : Nat := 0
  deriving DecidableEq, Repr, Inhabited

namespace AllocStats

def recordAlloc (s : AllocStats) (bytes : Nat) : AllocStats :=
  { s with bytesLive := s.bytesLive + bytes, allocations := s.allocations + 1 }

/-- Count a release. The bytes in use never fall below zero. -/
def recordFree (s : AllocStats) (bytes : Nat) : AllocStats :=
  { s with bytesLive := s.bytesLive - bytes, frees := s.frees + 1 }

end AllocStats

end TieredState
