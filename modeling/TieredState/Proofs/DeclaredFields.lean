import Mathlib.Data.List.Nodup
import TieredState.Builtin
import TieredState.World.Binding

/-!
# What declarations say of the fields

Storage, initial values, replacement, records and the exchange of persistent fields are all made from
one list of clauses, each in its own way. The records are what others see of a structure, and here it
is shown that they tell the truth about the rest.

A value of a structure is any storage that `Fits` it: it has the fields that exist in the build, and
in each a cell of the declared kind. `Made` are the values that come about from the initial one.

* `Storage.cells_exchange` — what a sequence of swaps leaves in each field.
* `Storage.exchange?_eq` — an exchange that stops where a field is missing does not stop.
* `Clause.field_eq` — marks that are set one after the other are those that the flags contain.
* `StateStruct.Made.agrees` — every cell is under the lock that it was declared with.
* `StateStruct.reflection` — the records against what the exchange and the replacement do.
* `World.startBinding_carries` — a new binding takes over what the records of a thread's variables
  mark as persistent.
-/

namespace TieredState

variable {α : Type}

/-! ## Cells of a storage -/

namespace Storage

variable {a b s : Storage α} {x y : String} {c e : Cell α}

/-- The names of the fields, in their order. -/
def names (s : Storage α) : List String := s.map (·.1)

/-- A field is looked for from the first on. -/
theorem cell?_cons (f : String × Cell α) (s : Storage α) (x : String) :
    cell? (f :: s) x = if x = f.1 then some f.2 else s.cell? x := by
  unfold cell?
  rw [List.lookup_cons]
  by_cases h : x = f.1
  · simp [h]
  · rw [beq_false_of_ne h, if_neg h]

/-- A storage has a cell under each of its names, and under no other. -/
theorem mem_names_iff : x ∈ s.names ↔ ∃ c, s.cell? x = some c := by
  induction s with
  | nil => simp [names, cell?]
  | cons f s ih =>
    rw [cell?_cons]
    by_cases h : x = f.1
    · simp [names, h]
    · simpa [names, h] using ih

/-- A cell that is found stands under its name. -/
theorem mem_of_cell? (h : s.cell? x = some c) : (x, c) ∈ s := by
  induction s with
  | nil => simp [cell?] at h
  | cons f s ih =>
    rw [cell?_cons] at h
    split at h
    · next hx =>
      rw [hx, ← Option.some.inj h]
      exact List.mem_cons_self
    · exact List.mem_cons_of_mem f (ih h)

/-- There is no cell under a name that the storage does not have. -/
theorem cell?_eq_none (h : x ∉ s.names) : s.cell? x = none :=
  Option.eq_none_iff_forall_ne_some.2 fun c hc => h (mem_names_iff.2 ⟨c, hc⟩)

/-- A storage is given by its names and the cell under each. -/
theorem eq_of_cells (hnames : a.names = b.names) (hnodup : a.names.Nodup)
    (hcells : ∀ x, a.cell? x = b.cell? x) : a = b := by
  induction a generalizing b with
  | nil =>
    cases b with
    | nil => rfl
    | cons g b => simp [names] at hnames
  | cons f a ih =>
    cases b with
    | nil => simp [names] at hnames
    | cons g b =>
      obtain ⟨hname, hnames⟩ : f.1 = g.1 ∧ names a = names b := List.cons.inj hnames
      obtain ⟨hnew, hnodup⟩ : f.1 ∉ names a ∧ (names a).Nodup := List.nodup_cons.1 hnodup
      have hfirst : f.2 = g.2 := by
        have h := hcells f.1
        rw [cell?_cons, cell?_cons, if_pos rfl, if_pos hname] at h
        exact Option.some.inj h
      have hrest : a = b := by
        refine ih hnames hnodup fun x => ?_
        have h := hcells x
        rw [cell?_cons, cell?_cons, ← hname] at h
        by_cases hx : x = f.1
        · -- the name of the first field is in neither rest
          subst hx
          exact (cell?_eq_none hnew).trans (cell?_eq_none (hnames ▸ hnew)).symm
        · rwa [if_neg hx, if_neg hx] at h
      rw [hrest, Prod.ext hname hfirst]

@[simp] theorem names_replace (s : Storage α) (x : String) (c : Cell α) :
    (s.replace x c).names = s.names := by
  simp only [names, replace, List.map_map]
  refine List.map_congr_left fun f _ => ?_
  by_cases h : f.1 = x <;> simp [h]

/-- A replacement changes the cell under its name, if there is one, and no other. -/
theorem cell?_replace (s : Storage α) (x y : String) (c : Cell α) :
    (s.replace x c).cell? y = if y = x then (s.cell? y).map fun _ => c else s.cell? y := by
  induction s with
  | nil => simp [replace, cell?]
  | cons f s ih =>
    have hcons : replace (f :: s) x c = (if f.1 = x then (x, c) else f) :: replace s x c := rfl
    rw [hcons, cell?_cons, cell?_cons, ih]
    by_cases hf : f.1 = x <;> by_cases hy : y = x <;> grind

/-- Replacing a content gives the previous one and leaves the lock around it. -/
theorem set_eq_some {v old : α} : s.set x v = some (old, b) ↔
    ∃ c, s.cell? x = some c ∧ c.content = old ∧ s.replace x { c with content := v } = b := by
  simp [set, Option.map_eq_some_iff]

/-! ## Exchanges -/

/-- A swap puts each cell in the place of the other. -/
theorem swap_eq (ha : a.cell? x = some c) (hb : b.cell? x = some e) :
    a.swap b x = (a.replace x e, b.replace x c) := by
  simp [swap, ha, hb]

/-- Swap one field after the other. -/
def exchange (fields : List String) (a b : Storage α) : Storage α × Storage α :=
  fields.foldl (fun p x => p.1.swap p.2 x) (a, b)

/-- Swap two fields, or stop where one of them does not exist. -/
def swap? (a b : Storage α) (x : String) : Option (Storage α × Storage α) := do
  let c ← a.cell? x
  let e ← b.cell? x
  return (a.replace x e, b.replace x c)

/-- Swap one field after the other, and stop where one does not exist. -/
def exchange? (fields : List String) (a b : Storage α) : Option (Storage α × Storage α) :=
  fields.foldlM (fun p x => p.1.swap? p.2 x) (a, b)

/-- Fields are swapped one after the other, from the first on. -/
theorem exchange_cons (x : String) (fields : List String) (a b : Storage α) :
    exchange (x :: fields) a b = exchange fields (a.swap b x).1 (a.swap b x).2 := rfl

/-- Both sides of a swap are treated alike. -/
theorem swap_comm (a b : Storage α) (x : String) :
    a.swap b x = ((b.swap a x).2, (b.swap a x).1) := by
  unfold swap
  cases a.cell? x <;> cases b.cell? x <;> rfl

/-- What one of the two storages becomes tells what the other does. -/
theorem exchange_comm (fields : List String) (a b : Storage α) :
    exchange fields a b = ((exchange fields b a).2, (exchange fields b a).1) := by
  induction fields generalizing a b with
  | nil => rfl
  | cons x fields ih =>
    rw [exchange_cons, exchange_cons, swap_comm a b]
    exact ih _ _

/-- A swap keeps the names of the fields. -/
theorem names_swap (a b : Storage α) (x : String) : (a.swap b x).1.names = a.names := by
  unfold swap
  split <;> simp

/-- An exchange keeps the names of the fields. -/
theorem names_exchange (fields : List String) (a b : Storage α) :
    (exchange fields a b).1.names = a.names := by
  induction fields generalizing a b with
  | nil => rfl
  | cons x fields ih =>
    rw [exchange_cons, ih]
    exact names_swap a b x

/-- Both storages have the fields. -/
def Common (fields : List String) (a b : Storage α) : Prop :=
  ∀ x ∈ fields, x ∈ a.names ∧ x ∈ b.names

/-- The first field can be swapped, and the others are in both storages still. -/
theorem Common.first {fields : List String} (h : Common (x :: fields) a b) :
    (∃ c e, a.cell? x = some c ∧ b.cell? x = some e) ∧
      Common fields (a.swap b x).1 (a.swap b x).2 := by
  obtain ⟨ha, hb⟩ := h x List.mem_cons_self
  obtain ⟨c, hc⟩ := mem_names_iff.1 ha
  obtain ⟨e, he⟩ := mem_names_iff.1 hb
  refine ⟨⟨c, e, hc, he⟩, fun y hy => ?_⟩
  rw [names_swap, swap_comm, names_swap]
  exact h y (List.mem_cons_of_mem x hy)

/-- The fields that are exchanged come from the other storage, and the others are where they were. -/
theorem cells_exchange {fields : List String} (hnodup : fields.Nodup) (h : Common fields a b)
    (y : String) :
    (exchange fields a b).1.cell? y = if y ∈ fields then b.cell? y else a.cell? y := by
  induction fields generalizing a b with
  | nil => simp [exchange]
  | cons x fields ih =>
    obtain ⟨⟨c, e, hc, he⟩, hcommon⟩ := h.first
    obtain ⟨hx, hnodup⟩ := List.nodup_cons.1 hnodup
    rw [exchange_cons, ih hnodup hcommon, swap_eq hc he, cell?_replace, cell?_replace]
    by_cases hy : y = x
    · -- the field is swapped once, since it does not come again
      subst hy
      simp [hx, hc, he]
    · simp [hy]

/-- Where every field exists, none is missed. -/
theorem exchange?_eq {fields : List String} (h : Common fields a b) :
    exchange? fields a b = some (exchange fields a b) := by
  induction fields generalizing a b with
  | nil => rfl
  | cons x fields ih =>
    obtain ⟨⟨c, e, hc, he⟩, hcommon⟩ := h.first
    have hstep : a.swap? b x = some (a.swap b x) := by
      simp [swap?, hc, he, swap_eq hc he]
    have hrest := ih hcommon
    unfold exchange? at hrest ⊢
    rw [List.foldlM_cons, hstep]
    exact hrest

/-- A field that is not exchanged has no part in the exchange, whatever it holds. -/
theorem exchange_aside {fields : List String} (hx : x ∉ fields) (c e : Cell α) (a b : Storage α) :
    exchange fields ((x, c) :: a) ((x, e) :: b) =
      ((x, c) :: (exchange fields a b).1, (x, e) :: (exchange fields a b).2) := by
  induction fields generalizing a b with
  | nil => rfl
  | cons y fields ih =>
    rw [List.mem_cons, not_or] at hx
    obtain ⟨hxy, hx⟩ := hx
    have hswap : swap ((x, c) :: a) ((x, e) :: b) y =
        ((x, c) :: (a.swap b y).1, (x, e) :: (a.swap b y).2) := by
      unfold swap
      rw [cell?_cons, cell?_cons, if_neg (Ne.symm hxy), if_neg (Ne.symm hxy)]
      split <;> simp [replace, hxy]
    rw [exchange_cons, hswap, ih hx]
    rfl

end Storage

/-! ## Records -/

/-- Marks that are set one after the other are those that the flags contain. -/
theorem Field.foldl_mark (flags : List Flag) (f : Field) :
    flags.foldl Field.mark f = { f with
      exported := f.exported || flags.contains .exported
      persistent := f.persistent || flags.contains .persistent
      constant := f.constant || flags.contains .constant } := by
  induction flags generalizing f with
  | nil => simp
  | cons flag flags ih =>
    rw [List.foldl_cons, ih]
    cases flag <;> simp [Field.mark]

/-- The record says what the clause says, and of the flags that they are there. -/
theorem Clause.field_eq (c : Clause α) (t : Tier) :
    c.field t = {
      name := c.name
      tier := t
      type := c.type
      initial? := some c.initialText
      condition? := c.condition?.map (·.1)
      protection := c.protection
      exported := c.flags.contains .exported
      persistent := c.isPersistent
      constant := c.flags.contains .constant } := by
  simp [field, Field.foldl_mark, isPersistent]

namespace StateStruct

open Storage

variable {d : StateStruct α} {a b s : Storage α} {f : Field} {r : Protection → Protection → Prop}

/-- The names of the fields that exist in this build. -/
def names (d : StateStruct α) : List String := d.present.map (·.name)

/-- The names of the fields that are exchanged. -/
def carried (d : StateStruct α) : List String :=
  (d.present.filter (·.isPersistent)).map (·.name)

/-- The fields that exist have names of their own. -/
theorem nodup_names (d : StateStruct α) : d.names.Nodup := d.distinct

/-- No field is exchanged twice. -/
theorem nodup_carried (d : StateStruct α) : d.carried.Nodup :=
  (List.filter_sublist.map _).nodup d.distinct

/-- What is exchanged exists. -/
theorem carried_subset (d : StateStruct α) : d.carried ⊆ d.names :=
  (List.filter_sublist.map _).subset

/-- Declarations go by the names of the fields that exist. -/
theorem names_declarations (d : StateStruct α) : d.declarations.map (·.name) = d.names := by
  simp only [declarations, names, List.map_map]
  refine List.map_congr_left fun c _ => ?_
  simp [Clause.field_eq]

/-- A record is marked as persistent exactly if its field is exchanged. -/
theorem persistent_iff (hf : f ∈ d.declarations) : f.persistent = true ↔ f.name ∈ d.carried := by
  obtain ⟨c, hc, rfl⟩ := List.mem_map.1 hf
  simp only [Clause.field_eq, carried, List.mem_map, List.mem_filter]
  constructor
  · intro hpersistent
    exact ⟨c, ⟨hc, hpersistent⟩, rfl⟩
  · rintro ⟨e, ⟨he, hpersistent⟩, hname⟩
    -- no other field has the name
    rwa [List.inj_on_of_nodup_map d.distinct he hc hname] at hpersistent

/-- The fields that are carried over are the persistent ones. -/
theorem carryPersistent_eq (d : StateStruct α) (a b : Storage α) :
    d.carryPersistent a b = exchange d.carried a b := by
  simp [carryPersistent, carried, exchange, List.foldl_map]

/-- Exchange the persistent fields of two storages, and stop where one does not exist. -/
def carryPersistent? (d : StateStruct α) (a b : Storage α) : Option (Storage α × Storage α) :=
  (d.present.filter (·.isPersistent)).foldlM (fun p c => p.1.swap? p.2 c.name) (a, b)

/-- The persistent fields are carried over in the same way where one of them might not exist. -/
theorem carryPersistent?_eq (d : StateStruct α) (a b : Storage α) :
    d.carryPersistent? a b = exchange? d.carried a b := by
  simp [carryPersistent?, carried, exchange?, List.foldlM_map]

/-! ## Values -/

/-- The storage has the fields of the structure, and what is around each is in relation `r` to what
was declared. -/
structure Agrees (d : StateStruct α) (r : Protection → Protection → Prop) (s : Storage α) :
    Prop where
  names_eq : s.names = d.names
  related : ∀ c ∈ d.present, ∀ e, s.cell? c.name = some e → r e.protection c.protection

/-- The storage is a value of the structure: in each field is a cell of the declared kind. A cell has
a lock of its own, and its kind does not say which. -/
def Fits (d : StateStruct α) (s : Storage α) : Prop := d.Agrees (fun p q => p.kind = q.kind) s

/-- What is exchanged is in every value. -/
theorem common_carried (ha : a.names = d.names) (hb : b.names = d.names) :
    Common d.carried a b := by
  intro x hx
  rw [ha, hb]
  exact ⟨d.carried_subset hx, d.carried_subset hx⟩

/-- What one of the two storages becomes tells what the other does. -/
theorem carry_snd (d : StateStruct α) (a b : Storage α) :
    (d.carryPersistent a b).2 = (d.carryPersistent b a).1 := by
  rw [carryPersistent_eq, carryPersistent_eq, exchange_comm]

/-- A storage keeps its fields when the persistent ones are carried over. -/
theorem names_carry (d : StateStruct α) (a b : Storage α) :
    (d.carryPersistent a b).1.names = a.names := by
  rw [carryPersistent_eq]
  exact names_exchange d.carried a b

/-- What an exchange leaves in each field. -/
theorem cells_carry (ha : a.names = d.names) (hb : b.names = d.names) (y : String) :
    (d.carryPersistent a b).1.cell? y = if y ∈ d.carried then b.cell? y else a.cell? y := by
  rw [carryPersistent_eq]
  exact cells_exchange d.nodup_carried (common_carried ha hb) y

/-- Values agree with the structure after the persistent fields have been exchanged. -/
theorem Agrees.carry (ha : d.Agrees r a) (hb : d.Agrees r b) :
    d.Agrees r (d.carryPersistent a b).1 := by
  refine ⟨(d.names_carry a b).trans ha.names_eq, fun c hc e he => ?_⟩
  -- the cell comes from one of the two storages, and in that one it is as declared
  rw [cells_carry ha.names_eq hb.names_eq] at he
  split at he
  · exact hb.related c hc e he
  · exact ha.related c hc e he

/-- Values agree with the structure after a content was replaced. -/
theorem Agrees.replace (hs : d.Agrees r s) {x : String} {e : Cell α} (he : s.cell? x = some e)
    (v : α) : d.Agrees r (Storage.replace s x { e with content := v }) := by
  refine ⟨(names_replace s x _).trans hs.names_eq, fun c hc e' he' => ?_⟩
  rw [cell?_replace] at he'
  split at he'
  · next hx =>
    rw [hx, he] at he'
    rw [← Option.some.inj he']
    exact hs.related c hc e (hx ▸ he)
  · exact hs.related c hc e' he'

/-- The values that come about from the initial one. A content that is changed in place, or under its
lock, is replaced like any other. -/
inductive Made (d : StateStruct α) : Storage α → Prop
  | new : Made d d.new
  | set {s s' : Storage α} {x : String} {v old : α} :
      Made d s → s.set x v = some (old, s') → Made d s'
  | taker {a b : Storage α} : Made d a → Made d b → Made d (d.carryPersistent a b).1
  | giver {a b : Storage α} : Made d a → Made d b → Made d (d.carryPersistent a b).2

/-- The initial value agrees with the structure. -/
theorem agrees_new (d : StateStruct α) : d.Agrees Eq d.new := by
  have hnames : d.new.names = d.names := by simp [Storage.names, new, names]
  refine ⟨hnames, fun c hc e he => ?_⟩
  obtain ⟨c', hc', heq⟩ := List.mem_map.1 (mem_of_cell? he)
  obtain ⟨hname, rfl⟩ := Prod.mk.inj heq
  rw [List.inj_on_of_nodup_map d.distinct hc' hc hname]

/-- Every cell is under the lock that it was declared with. -/
theorem Made.agrees (h : d.Made s) : d.Agrees Eq s := by
  induction h with
  | new => exact d.agrees_new
  | set _ hset ih =>
    obtain ⟨e, he, -, rfl⟩ := set_eq_some.1 hset
    exact ih.replace he _
  | taker _ _ iha ihb => exact iha.carry ihb
  | @giver a b _ _ iha ihb => exact d.carry_snd a b ▸ ihb.carry iha

/-- Every value that comes about has the declared fields, each of the declared kind. -/
theorem Made.fits (h : d.Made s) : d.Fits s :=
  ⟨h.agrees.names_eq, fun c hc e he => congrArg Protection.kind (h.agrees.related c hc e he)⟩

/-! ## Records and behaviour -/

/-- A field that does not exist in the build has no part in the exchange, whatever it holds. -/
theorem carry_aside {x : String} (hx : x ∉ d.names) (c e : Cell α) (a b : Storage α) :
    d.carryPersistent ((x, c) :: a) ((x, e) :: b) =
      ((x, c) :: (d.carryPersistent a b).1, (x, e) :: (d.carryPersistent a b).2) := by
  simp only [carryPersistent_eq]
  exact exchange_aside (fun h => hx (d.carried_subset h)) c e a b

/-- The second exchange undoes the first. -/
theorem carry_back (ha : a.names = d.names) (hb : b.names = d.names) :
    (d.carryPersistent (d.carryPersistent a b).1 (d.carryPersistent a b).2).1 = a := by
  rw [carry_snd]
  have ha' := (d.names_carry a b).trans ha
  have hb' := (d.names_carry b a).trans hb
  refine eq_of_cells ((d.names_carry _ _).trans (d.names_carry a b)) ?_ fun y => ?_
  · rw [names_carry, ha']
    exact d.nodup_names
  · -- a cell that goes over comes back
    rw [cells_carry ha' hb', cells_carry ha hb, cells_carry hb ha]
    split <;> rfl

/-- The records of a structure against what its values do:

* the records name the fields of every value, in their order;
* an exchange of the persistent fields of two values gives two values again, in which the fields that
  are recorded as persistent have changed places and all others are as they were;
* it stops at no field that is missing, a field that does not exist in the build has no part in it,
  and the second exchange undoes the first;
* the replacement of a recorded field gives the previous content, puts the new one into the same cell
  and leaves the other fields as they were; the kind of the cell is the recorded one, and so is its
  lock in every value that comes about from the initial one. -/
theorem reflection (d : StateStruct α) :
    (∀ s, d.Fits s → s.names = d.declarations.map (·.name)) ∧
    (∀ a b, d.Fits a → d.Fits b → ∃ a' b', d.carryPersistent a b = (a', b') ∧
      d.Fits a' ∧ d.Fits b' ∧
      (∀ f ∈ d.declarations,
        a'.cell? f.name = (if f.persistent then b.cell? f.name else a.cell? f.name) ∧
        b'.cell? f.name = if f.persistent then a.cell? f.name else b.cell? f.name) ∧
      d.carryPersistent? a b = some (a', b') ∧
      (∀ x, x ∉ d.declarations.map (·.name) → ∀ c e,
        d.carryPersistent ((x, c) :: a) ((x, e) :: b) = ((x, c) :: a', (x, e) :: b')) ∧
      d.carryPersistent a' b' = (a, b)) ∧
    (∀ a, d.Fits a → ∀ f ∈ d.declarations, ∀ v, ∃ c a',
      a.cell? f.name = some c ∧
      a.set f.name v = some (c.content, a') ∧
      a'.cell? f.name = some { c with content := v } ∧
      (∀ x, x ≠ f.name → a'.cell? x = a.cell? x) ∧
      d.Fits a' ∧
      c.protection.kind = f.protection.kind ∧
      (d.Made a → c.protection = f.protection)) := by
  rw [names_declarations]
  refine ⟨fun s hs => hs.names_eq, fun a b ha hb => ?_, fun a ha f hf v => ?_⟩
  · -- the exchange: which fields change places is told by the names that are carried
    have hsnd := d.carry_snd a b
    refine ⟨(d.carryPersistent a b).1, (d.carryPersistent a b).2, rfl, ha.carry hb,
      hsnd ▸ hb.carry ha, fun f hf => ?_, ?_, fun x hx c e => carry_aside hx c e a b,
      Prod.ext (carry_back ha.names_eq hb.names_eq) ?_⟩
    · simp only [persistent_iff hf]
      exact ⟨cells_carry ha.names_eq hb.names_eq f.name,
        hsnd ▸ cells_carry hb.names_eq ha.names_eq f.name⟩
    · rw [carryPersistent?_eq, carryPersistent_eq]
      exact exchange?_eq (common_carried ha.names_eq hb.names_eq)
    · rw [carry_snd, hsnd, ← carry_snd d b a]
      exact carry_back hb.names_eq ha.names_eq
  · -- the replacement: a record is that of a clause, and the clause has a cell in the value
    obtain ⟨k, hk, rfl⟩ := List.mem_map.1 hf
    have hmem : k.name ∈ a.names := ha.names_eq ▸ List.mem_map_of_mem hk
    obtain ⟨c, hc⟩ := mem_names_iff.1 hmem
    rw [Clause.field_eq]
    refine ⟨c, a.replace k.name { c with content := v }, hc, set_eq_some.2 ⟨c, hc, rfl, rfl⟩, ?_,
      fun x hx => ?_, ha.replace hc v, ha.related k hk c hc,
      fun hmade => hmade.agrees.related k hk c hc⟩
    · rw [cell?_replace, if_pos rfl, hc]
      rfl
    · rw [cell?_replace, if_neg hx]

/-- A structure with fields of every kind. The build has the second of the two fields called `limit`,
and it has no field called `trace`. -/
def ofEveryKind : StateStruct Nat where
  tier := .perThread
  clauses := [
    { name := "depth", type := "usize", initialText := "0", initial := 0 },
    { name := "limit", type := "u8", initialText := "9", initial := 9,
      condition? := some ("test", false) },
    { name := "limit", type := "u32", initialText := "7", initial := 7,
      condition? := some ("not(test)", true), flags := [.exported, .persistent],
      protection := .mutex .alloc },
    { name := "count", type := "u64", initialText := "1", initial := 1, flags := [.constant],
      protection := .readMostly .shPath },
    { name := "trace", type := "bool", initialText := "0", initial := 0,
      condition? := some ("feature = \"trace\"", false), flags := [.persistent] }]

/-- A value of it in which two fields have been written. -/
def ofEveryKindWritten : Storage Nat :=
  [("depth", ⟨.unlocked, 3⟩), ("limit", ⟨.mutex .alloc, 4⟩), ("count", ⟨.readMostly .shPath, 1⟩)]

/-- The lock of the exchanged field stays around it, and what other builds have under a name that
this one lacks is not touched. -/
theorem reflection_of_every_kind :
    ofEveryKind.Made ofEveryKindWritten ∧
    (∃ f ∈ ofEveryKind.declarations, f.name = "limit" ∧ f.persistent = true ∧
      ∃ a b, ofEveryKind.carryPersistent ofEveryKind.new ofEveryKindWritten = (a, b) ∧
        a.cell? "limit" = some ⟨.mutex .alloc, 4⟩ ∧ b.cell? "limit" = some ⟨.mutex .alloc, 7⟩ ∧
        ofEveryKind.carryPersistent (("trace", ⟨.unlocked, 1⟩) :: ofEveryKind.new)
            (("trace", ⟨.unlocked, 2⟩) :: ofEveryKindWritten) =
          (("trace", ⟨.unlocked, 1⟩) :: a, ("trace", ⟨.unlocked, 2⟩) :: b) ∧
        ofEveryKind.carryPersistent a b = (ofEveryKind.new, ofEveryKindWritten) ∧
        ∃ a', ofEveryKindWritten.set "limit" 6 = some (4, a') ∧
          a'.cell? "limit" = some ⟨f.protection, 6⟩) := by
  have hwritten : ofEveryKind.Made ofEveryKindWritten := by
    have hdepth : ofEveryKind.new.set "depth" 3 = some (0, [("depth", ⟨.unlocked, 3⟩),
        ("limit", ⟨.mutex .alloc, 7⟩), ("count", ⟨.readMostly .shPath, 1⟩)]) := rfl
    have hlimit : Storage.set [("depth", ⟨.unlocked, 3⟩), ("limit", ⟨.mutex .alloc, 7⟩),
        ("count", ⟨.readMostly .shPath, 1⟩)] "limit" 4 = some (7, ofEveryKindWritten) := rfl
    exact (Made.new.set hdepth).set hlimit
  obtain ⟨-, hcarry, hset⟩ := reflection ofEveryKind
  obtain ⟨a, b, hab, -, -, hcells, -, haside, hback⟩ := hcarry _ _ Made.new.fits hwritten.fits
  -- the laws are read at the persistent field `limit`
  obtain ⟨f, hf, hname, hpersistent⟩ :
      ∃ f ∈ ofEveryKind.declarations, f.name = "limit" ∧ f.persistent = true := by decide
  obtain ⟨hlimit, hlimit'⟩ := hcells f hf
  obtain ⟨c, a', hc, heq, hcell, -, -, -, hlock⟩ := hset _ hwritten.fits f hf 6
  rw [hname] at hlimit hlimit' hc heq hcell
  rw [if_pos hpersistent] at hlimit hlimit'
  have hold : c.content = 4 := by
    rw [← Option.some.inj hc]
  rw [hold] at heq
  rw [hlock hwritten] at hcell
  exact ⟨hwritten, f, hf, hname, hpersistent, a, b, hab, hlimit, hlimit',
    haside "trace" (by decide) _ _, hback, a', heq, hcell⟩

end StateStruct

/-! ## The variables of a thread -/

namespace ThreadVars

/-- The variables as a storage of the structure that declares them. -/
def storage (v : ThreadVars) : Storage Builtin.Content :=
  [("stack_depth", ⟨.unlocked, .number v.stackDepth⟩),
    ("last_error", ⟨.unlocked, .optionalText v.lastError?⟩),
    ("locale", ⟨.unlocked, .optionalText v.locale?⟩)]

/-- A thread starts with the initial value of its structure. -/
theorem storage_initial : ({} : ThreadVars).storage = Builtin.threadVars.new := rfl

/-- The declarations of the variables mark the locale as persistent, and nothing else. -/
theorem carry_storage (v w : ThreadVars) :
    Builtin.threadVars.carryPersistent v.storage w.storage =
      ({ v with locale? := w.locale? }.storage, { w with locale? := v.locale? }.storage) := rfl

end ThreadVars

/-- A new binding begins with the initial variables. From those of the thread's last binding to the
same instance, where they wait for it, it takes over what is declared as persistent. -/
theorem World.startBinding_carries (w : World) (th : Thread) (tok : Token) (slot : Slot)
    (id : InstanceId) :
    let (h, th') := w.startBinding th tok slot id
    (th'.storages.get? h.storage).map (·.vars.storage) =
      match (w.pruneRetired slot).retired.get? id with
      | some old => some (Builtin.threadVars.carryPersistent Builtin.threadVars.new old.storage).1
      | none => some Builtin.threadVars.new := by
  simp only [startBinding, Table.get?_insert, if_pos]
  cases (w.pruneRetired slot).retired.get? id with
  | none => rfl
  | some old =>
    rw [← ThreadVars.storage_initial]
    simp only [ThreadVars.carry_storage]
    rfl

end TieredState
