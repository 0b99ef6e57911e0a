/-!
# Finite tables

A table holds at most one value under each key. `get?` is the view through which each operation is
described: `get?_insert`, `get?_erase`, `get?_modify` and `get?_filter` say all there is to say
about them.
-/

namespace TieredState

/-- A finite map from keys to values. -/
structure Table (κ α : Type) where
  entries : List (κ × α)
  nodup : (entries.map (·.1)).Nodup

namespace Table

variable {κ α : Type}

/-- The table without entries. -/
def empty : Table κ α := ⟨[], List.nodup_nil⟩

instance : EmptyCollection (Table κ α) := ⟨empty⟩

instance : Inhabited (Table κ α) := ⟨empty⟩

def keys (t : Table κ α) : List κ := t.entries.map (·.1)

def values (t : Table κ α) : List α := t.entries.map (·.2)

def size (t : Table κ α) : Nat := t.entries.length

/-- The entries that `p` holds of. -/
def filter (t : Table κ α) (p : κ → α → Bool) : Table κ α where
  entries := t.entries.filter fun e => p e.1 e.2
  nodup := List.Sublist.nodup (List.Sublist.map _ List.filter_sublist) t.nodup

variable [DecidableEq κ]

def get? (t : Table κ α) (k : κ) : Option α := (t.entries.find? (·.1 = k)).map (·.2)

def contains (t : Table κ α) (k : κ) : Bool := (t.get? k).isSome

/-- The table without the value under `k`. -/
def erase (t : Table κ α) (k : κ) : Table κ α := t.filter fun j _ => j ≠ k

/-- The table with `v` under `k`, in the place of what was there. -/
def insert (t : Table κ α) (k : κ) (v : α) : Table κ α where
  entries := (k, v) :: (t.erase k).entries
  nodup := by
    have h : k ∉ (t.erase k).entries.map (·.1) := by
      simp [erase, filter]
    exact List.nodup_cons.2 ⟨h, (t.erase k).nodup⟩

/-- The table with the value under `k` changed, if there is one. -/
def modify (t : Table κ α) (k : κ) (f : α → α) : Table κ α :=
  match t.get? k with
  | some v => t.insert k (f v)
  | none => t

/-! ## The view of each operation -/

@[simp] theorem get?_empty (k : κ) : (empty : Table κ α).get? k = none := rfl

/-- The values that `get?` finds are those that the table has an entry for. -/
theorem get?_eq_some {t : Table κ α} {k : κ} {v : α} :
    t.get? k = some v ↔ (k, v) ∈ t.entries := by
  obtain ⟨es, nodup⟩ := t
  simp only [get?, Option.map_eq_some_iff]
  induction es with
  | nil => simp
  | cons e es ih =>
    obtain ⟨j, u⟩ := e
    rw [List.map_cons, List.nodup_cons] at nodup
    by_cases hj : j = k
    · subst hj
      have hout : ∀ w, (j, w) ∉ es := fun w hw => nodup.1 (List.mem_map.2 ⟨(j, w), hw, rfl⟩)
      simp [hout, eq_comm]
    · have hkj : ¬k = j := fun h => hj h.symm
      simpa [hj, hkj] using ih nodup.2

/-- The values are those that stand under some key. -/
theorem mem_values {t : Table κ α} {v : α} : v ∈ t.values ↔ ∃ k, t.get? k = some v := by
  rw [values, List.mem_map]
  constructor
  · rintro ⟨⟨k, u⟩, hmem, rfl⟩
    exact ⟨k, get?_eq_some.2 hmem⟩
  · rintro ⟨k, hk⟩
    exact ⟨(k, v), get?_eq_some.1 hk, rfl⟩

/-- The keys are those that some value stands under. -/
theorem mem_keys {t : Table κ α} {k : κ} : k ∈ t.keys ↔ ∃ v, t.get? k = some v := by
  rw [keys, List.mem_map]
  constructor
  · rintro ⟨⟨j, v⟩, hmem, rfl⟩
    exact ⟨v, get?_eq_some.2 hmem⟩
  · rintro ⟨v, hv⟩
    exact ⟨(k, v), get?_eq_some.1 hv, rfl⟩

/-- Only the entries that the condition holds of are found. -/
@[simp] theorem get?_filter (t : Table κ α) (p : κ → α → Bool) (k : κ) :
    (t.filter p).get? k = (t.get? k).filter (p k) := by
  ext v
  rw [get?_eq_some, Option.filter_eq_some_iff, get?_eq_some]
  simp [filter]

/-- Nothing is found under the key that was erased. -/
@[simp] theorem get?_erase (t : Table κ α) (k j : κ) :
    (t.erase k).get? j = if j = k then none else t.get? j := by
  by_cases h : j = k
  · subst h
    simp [get?, erase, filter, List.find?_eq_none]
  · rw [if_neg h, erase, get?_filter]
    cases t.get? j <;> simp [h]

/-- Under the key that was inserted its value is found. -/
@[simp] theorem get?_insert (t : Table κ α) (k j : κ) (v : α) :
    (t.insert k v).get? j = if j = k then some v else t.get? j := by
  by_cases h : j = k
  · subst h
    simp [get?, insert]
  · rw [if_neg h]
    have hjk : ¬k = j := fun e => h e.symm
    have step : (t.insert k v).get? j = (t.erase k).get? j := by
      simp [get?, insert, hjk]
    rw [step, get?_erase, if_neg h]

/-- Under the key that was modified the modified value is found, if there was one. -/
@[simp] theorem get?_modify (t : Table κ α) (k j : κ) (f : α → α) :
    (t.modify k f).get? j = if j = k then (t.get? j).map f else t.get? j := by
  unfold modify
  split
  · rename_i v hv
    by_cases h : j = k
    · subst h
      simp [hv]
    · simp [h]
  · rename_i hv
    by_cases h : j = k
    · subst h
      simp [hv]
    · simp [h]

end Table

end TieredState
