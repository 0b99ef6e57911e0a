import Mathlib.Logic.Relation
import TieredState.Proofs.RecordReading

/-!
# The order of keys

`Value.Permutes` is one change of order: the keys of one table, anywhere in the tree of a document,
stand in another order. What stands under a key is then the same, or it has the change inside it. Plain
values have no change inside them, so a record of plain values says the same before and after.

* `Permutes.of_table`, `Permutes.of_array` — where the change can lie.
* `Permutes.distinct` — keys stay distinct.
* `RecordFormat.WellTyped.alike`, `RecordFormat.Holds.alike` — what is asked of a record, and what it
  says, is not changed.
-/

namespace TieredState.Toml

open Relation

/-- The keys of one table stand in another order, be it the value itself or one in it. How the table is
written may change as well. -/
inductive Value.Permutes : Value → Value → Prop
  | keys {origin origin' : Origin} {es es' : List (String × Value)} (h : es.Perm es') :
    Permutes (.table origin es) (.table origin' es')
  | entry {origin : Origin} {before after : List (String × Value)} {k : String} {v v' : Value}
    (h : Permutes v v') :
    Permutes (.table origin (before ++ (k, v) :: after)) (.table origin (before ++ (k, v') :: after))
  | item {headed : Bool} {before after : List Value} {v v' : Value} (h : Permutes v v') :
    Permutes (.array headed (before ++ v :: after)) (.array headed (before ++ v' :: after))

/-- The entries of the one table stand in the other, up to a change of order in their values. -/
structure Entries.Alike (es es' : Entries) : Prop where
  forth : ∀ k v, (k, v) ∈ es → ∃ v', (k, v') ∈ es' ∧ ReflGen Value.Permutes v v'
  back : ∀ k v', (k, v') ∈ es' → ∃ v, (k, v) ∈ es ∧ ReflGen Value.Permutes v' v

namespace Value.Permutes

variable {v v' : Value}

theorem symm (h : v.Permutes v') : v'.Permutes v := by
  induction h with
  | keys h => exact .keys h.symm
  | entry _ ih => exact .entry ih
  | item _ ih => exact .item ih

/-- A plain value has no table in it. -/
theorem isPlain_eq_false (h : v.Permutes v') : v.isPlain = false ∧ v'.isPlain = false := by
  cases h <;> exact ⟨rfl, rfl⟩

/-- An entry of a table in which the value under one key is exchanged for one that it permutes to. -/
theorem exchanged {before after : Entries} {j k : String} {u u' : Value} (h : u.Permutes u')
    (hmem : (k, v) ∈ before ++ (j, u) :: after) :
    ∃ v', (k, v') ∈ before ++ (j, u') :: after ∧ ReflGen Permutes v v' := by
  rcases List.mem_append.1 hmem with hbefore | hat
  · exact ⟨v, List.mem_append_left _ hbefore, .refl⟩
  · rcases List.mem_cons.1 hat with heq | hafter
    · obtain ⟨rfl, rfl⟩ := Prod.mk.inj heq
      exact ⟨u', List.mem_append_right _ List.mem_cons_self, .single h⟩
    · exact ⟨v, List.mem_append_right _ (List.mem_cons_of_mem _ hafter), .refl⟩

/-- What a table is changed into is a table of alike entries. -/
theorem of_table {origin : Origin} {es : Entries} (h : (Value.table origin es).Permutes v') :
    ∃ origin' es', v' = .table origin' es' ∧ es.Alike es' := by
  cases h with
  | @keys _ origin' _ es' h =>
    exact ⟨origin', es', rfl, fun k v hmem => ⟨v, h.mem_iff.1 hmem, .refl⟩,
      fun k v hmem => ⟨v, h.mem_iff.2 hmem, .refl⟩⟩
  | entry h =>
    exact ⟨origin, _, rfl, fun k v hmem => exchanged h hmem, fun k v hmem => exchanged h.symm hmem⟩

/-- What an array is changed into is an array, in which one element at most has changed. -/
theorem of_array {headed : Bool} {items : List Value} (h : (Value.array headed items).Permutes v') :
    ∃ items', v' = .array headed items' ∧ List.Forall₂ (ReflGen Permutes) items items' := by
  cases h with
  | item h =>
    have hrefl : ∀ vs : List Value, List.Forall₂ (ReflGen Permutes) vs vs :=
      fun vs => List.forall₂_same.2 fun _ _ => .refl
    exact ⟨_, rfl, List.rel_append (hrefl _) (.cons (.single h) (hrefl _))⟩

/-- A change of order brings no key a second time. -/
theorem distinct (h : v.Permutes v') (hv : v.Distinct) : v'.Distinct := by
  induction h with
  | keys h =>
    have hes := Entries.distinct_table.1 hv
    refine Entries.distinct_table.2 ⟨(h.map _).nodup_iff.1 hes.keys, fun e he => ?_⟩
    exact hes.values e (h.mem_iff.2 he)
  | entry _ ih =>
    obtain ⟨hkeys, hvalues⟩ := Entries.distinct_table.1 hv
    rw [List.forall_mem_append, List.forall_mem_cons] at hvalues
    obtain ⟨hbefore, hat, hafter⟩ := hvalues
    refine Entries.distinct_table.2 ⟨?_, ?_⟩
    · rwa [List.map_append, List.map_cons] at hkeys ⊢
    · rw [List.forall_mem_append, List.forall_mem_cons]
      exact ⟨hbefore, ih hat, hafter⟩
  | item _ ih =>
    rw [Entries.distinct_array, List.forall_mem_append, List.forall_mem_cons] at hv ⊢
    obtain ⟨hbefore, hat, hafter⟩ := hv
    exact ⟨hbefore, ih hat, hafter⟩

/-- A change of order can be undone, where there is one. -/
theorem reflGen_symm (h : ReflGen Permutes v v') : ReflGen Permutes v' v := by
  cases h with
  | refl => exact .refl
  | single h => exact .single h.symm

end Value.Permutes

/-! ## The same under every key -/

namespace Entries.Alike

variable {es es' : Entries} {k : String} {v v' : Value}

/-- Plain values have no order to be changed. -/
theorem eq_of_isPlain (h : ReflGen Value.Permutes v v') (hv : v.isPlain = true ∨ v'.isPlain = true) :
    v = v' := by
  cases h with
  | refl => rfl
  | single h =>
    rw [h.isPlain_eq_false.1, h.isPlain_eq_false.2, or_self] at hv
    cases hv

/-- A plain value stands in the other table just as it is. -/
theorem mem_of_isPlain (h : es.Alike es') (hmem : (k, v) ∈ es) (hv : v.isPlain = true) :
    (k, v) ∈ es' := by
  obtain ⟨v', hmem', hperm⟩ := h.forth k v hmem
  rwa [eq_of_isPlain hperm (.inl hv)]

/-- Both tables have the same keys. -/
theorem mem_keys_iff (h : es.Alike es') : k ∈ es.map (·.1) ↔ k ∈ es'.map (·.1) := by
  simp only [List.mem_map, Prod.exists, exists_and_right, exists_eq_right]
  constructor
  · rintro ⟨v, hmem⟩
    obtain ⟨v', hmem', -⟩ := h.forth k v hmem
    exact ⟨v', hmem'⟩
  · rintro ⟨v', hmem'⟩
    obtain ⟨v, hmem, -⟩ := h.back k v' hmem'
    exact ⟨v, hmem⟩

/-- What is found under a key is the same up to a change of order. -/
theorem find? (h : es.Alike es') (hkeys' : (es'.map (·.1)).Nodup) (k : String) :
    Option.Rel (ReflGen Value.Permutes) (es.find? k) (es'.find? k) := by
  cases hfind : es.find? k with
  | none =>
    rw [Entries.find?_eq_none, h.mem_keys_iff, ← Entries.find?_eq_none] at hfind
    rw [hfind]
    exact .none
  | some v =>
    obtain ⟨v', hmem', hperm⟩ := h.forth k v (Entries.mem_of_find? hfind)
    rw [Entries.find?_of_mem hkeys' hmem']
    exact .some hperm

/-- So a property that does not depend on order is had by what is found in the one and in the other. -/
theorem of_find? {P : Value → Prop} (h : es.Alike es') (hkeys' : (es'.map (·.1)).Nodup)
    (hP : ∀ v v', ReflGen Value.Permutes v v' → P v → P v') (hv : ∀ v, es.find? k = some v → P v) :
    ∀ v', es'.find? k = some v' → P v' := by
  intro v' hfind
  have hrel := h.find? hkeys' k
  rw [hfind] at hrel
  cases hsome : es.find? k with
  | none =>
    rw [hsome] at hrel
    cases hrel
  | some v =>
    rw [hsome] at hrel
    cases hrel with
    | some hperm => exact hP v v' hperm (hv v hsome)

end Entries.Alike

namespace RecordFormat

variable {σ : Type} {format : RecordFormat σ} {es es' : Entries} {r : σ} {v v' : Value}

/-- Under the keys of a record stand plain values. -/
theorem WellTyped.isPlain (h : format.WellTyped es) {k : String} (hmem : (k, v) ∈ es) :
    v.isPlain = true := by
  obtain ⟨kind, -, hadmits⟩ := h.typed k v hmem
  exact Kind.isPlain_of_admits hadmits

/-- A record of plain values has the same entries in any order. -/
theorem WellTyped.mem_iff (h : format.WellTyped es) (halike : es.Alike es') {k : String} :
    (k, v) ∈ es ↔ (k, v) ∈ es' := by
  constructor
  · intro hmem
    exact halike.mem_of_isPlain hmem (h.isPlain hmem)
  · intro hmem'
    obtain ⟨u, hmem, hperm⟩ := halike.back k v hmem'
    rwa [Entries.Alike.eq_of_isPlain hperm (.inr (h.isPlain hmem))]

/-- Entries are as well-typed in another order. -/
theorem WellTyped.alike (h : format.WellTyped es) (halike : es.Alike es') : format.WellTyped es' where
  typed k v hmem := h.typed k v ((h.mem_iff halike).2 hmem)
  present k hk := halike.mem_keys_iff.1 (h.present k hk)

/-- Entries say the same of a record in another order. -/
theorem Holds.alike (h : format.Holds es r) (htyped : format.WellTyped es) (halike : es.Alike es') :
    format.Holds es' r where
  kept k v hmem := h.kept k v ((htyped.mem_iff halike).2 hmem)
  supplied k habsent := h.supplied k fun hmem => habsent (halike.mem_keys_iff.1 hmem)

/-- Entries in another order are considered as well. -/
theorem Considers.alike (h : format.Considers es) (halike : es.Alike es') : format.Considers es' := by
  intro k v' hmem' kind hkind
  obtain ⟨v, hmem, hperm⟩ := halike.back k v' hmem'
  have hv := h k v hmem kind hkind
  cases kind with
  | text | boolean | byte => trivial
  | oneOf names =>
    rw [Entries.Alike.eq_of_isPlain hperm (.inr hv)]
    exact hv

/-- A value in another order is considered as well. -/
theorem Fits.permuted (h : format.Fits v) (hperm : ReflGen Value.Permutes v v') : format.Fits v' := by
  cases hperm with
  | refl => exact h
  | single hperm =>
    constructor
    · rintro headed items rfl
      obtain ⟨items', rfl, -⟩ := hperm.symm.of_array
      exact h.noArray _ _ rfl
    · rintro origin es' rfl
      obtain ⟨origin', es, rfl, halike⟩ := hperm.symm.of_table
      obtain ⟨_, _, heq, halike'⟩ := hperm.of_table
      obtain ⟨rfl, rfl⟩ := Value.table.inj heq
      exact (h.considers _ _ rfl).alike halike'

end RecordFormat

/-! ## Tables and lists in any order -/

section Permuted

variable {P : Entries → Prop} {v v' : Value}

/-- What is a table is one in another order too. -/
theorem Value.IsTable.permuted (hP : ∀ es es', es.Alike es' → P es → P es')
    (hperm : ReflGen Permutes v v') (h : v.IsTable P) : v'.IsTable P := by
  cases hperm with
  | refl => exact h
  | single hperm =>
    obtain ⟨origin, es, rfl, hes⟩ := h
    obtain ⟨origin', es', rfl, halike⟩ := hperm.of_table
    exact ⟨origin', es', rfl, hP es es' halike hes⟩

/-- The elements of an array keep their places. -/
theorem Value.permuted_array {headed : Bool} {items : List Value}
    (hperm : ReflGen Permutes (.array headed items) v') :
    ∃ items', v' = .array headed items' ∧ List.Forall₂ (ReflGen Permutes) items items' := by
  cases hperm with
  | refl => exact ⟨items, rfl, List.forall₂_same.2 fun _ _ => .refl⟩
  | single hperm => exact hperm.of_array

/-- What is an array of tables is one in another order too. -/
theorem Value.IsListOf.permuted (hP : ∀ es es', es.Alike es' → P es → P es')
    (hperm : ReflGen Permutes v v') (h : v.IsListOf (·.IsTable P)) : v'.IsListOf (·.IsTable P) := by
  obtain ⟨headed, items, rfl, hitems⟩ := h
  obtain ⟨items', rfl, hforall⟩ := permuted_array hperm
  refine ⟨headed, items', rfl, fun i' hi' => ?_⟩
  obtain ⟨i, hi, hii'⟩ := exists_related hforall.flip hi'
  exact (hitems i hi).permuted hP hii'

end Permuted

namespace RecordFormat

variable {σ : Type} {format : RecordFormat σ} {r : σ} {v v' : Value} {v? v?' : Option Value}

/-- A table says the same of a record in another order. -/
theorem holds_permuted (hperm : ReflGen Value.Permutes v v') (htyped : v.IsTable format.WellTyped)
    (h : v.IsTable (format.Holds · r)) : v'.IsTable (format.Holds · r) := by
  obtain ⟨origin, es, rfl, htyped⟩ := htyped
  obtain ⟨_, _, heq, hholds⟩ := h
  obtain ⟨rfl, rfl⟩ := Value.table.inj heq
  have hboth : (Value.table origin es).IsTable fun es => format.WellTyped es ∧ format.Holds es r :=
    ⟨origin, es, rfl, htyped, hholds⟩
  obtain ⟨origin', es', rfl, -, hholds'⟩ :=
    hboth.permuted (fun _ _ halike h => ⟨h.1.alike halike, h.2.alike h.1 halike⟩) hperm
  exact ⟨origin', es', rfl, hholds'⟩

/-- The elements of an array are considered in another order too. -/
theorem FitsEach.permuted (h : format.FitsEach v) (hperm : ReflGen Value.Permutes v v') :
    format.FitsEach v' := by
  rintro headed items' rfl i' hi'
  obtain ⟨items, rfl, hforall⟩ := Value.permuted_array (Value.Permutes.reflGen_symm hperm)
  obtain ⟨i, hi, hii'⟩ := exists_related hforall hi'
  exact (h headed items rfl i hi).permuted (Value.Permutes.reflGen_symm hii')

/-- What stands under a key says the same of a record in another order. -/
theorem HoldsAt.permuted (h : format.HoldsAt v? r)
    (hperm : Option.Rel (ReflGen Value.Permutes) v? v?')
    (htyped : ∀ v, v? = some v → v.IsTable format.WellTyped) : format.HoldsAt v?' r := by
  cases hperm with
  | none => exact h
  | some hperm => exact holds_permuted hperm (htyped _ rfl) h

/-- What stands under a key says the same of a list of records in another order. -/
theorem HoldsEach.permuted {rs : List σ} (h : format.HoldsEach v? rs)
    (hperm : Option.Rel (ReflGen Value.Permutes) v? v?')
    (htyped : ∀ v, v? = some v → v.IsListOf (·.IsTable format.WellTyped)) :
    format.HoldsEach v?' rs := by
  cases hperm with
  | none => exact h
  | some hperm =>
    obtain ⟨headed, items, rfl, hrs⟩ := h
    obtain ⟨_, _, heq, hitems⟩ := htyped _ rfl
    obtain ⟨rfl, rfl⟩ := Value.array.inj heq
    obtain ⟨items', rfl, hforall⟩ := Value.permuted_array hperm
    refine ⟨headed, items', rfl, ?_⟩
    clear heq hperm htyped
    induction hforall generalizing rs with
    | nil => exact hrs
    | cons hi _ ih =>
      rw [List.forall_mem_cons] at hitems
      obtain ⟨r, rs, hr, hrest, rfl⟩ := List.forall₂_cons_left_iff.1 hrs
      exact .cons (holds_permuted hi hitems.1 hr) (ih hrest hitems.2)

end RecordFormat

end TieredState.Toml
