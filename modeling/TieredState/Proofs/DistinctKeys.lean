import Mathlib.Data.List.Nodup
import TieredState.Toml.Document

/-!
# Keys of a document

What a document gives has each key once: in the outermost table, in every table below it, and in the
tables that stand in arrays. Statements come in any order and may add to tables that others have
begun, so this is kept statement by statement, and for a table between braces key by key.

* `Entries.Distinct` — each key once, all the way down.
* `distinct_within` — a change of one table of a tree keeps it.
* `distinct_of_parse?` — so it holds of all that a document gives.
-/

namespace TieredState.Toml

/-! ## Values whose tables have each key once -/

namespace Value

/-- A value that holds no other. -/
def isPlain : Value → Bool
  | array _ _ | table _ _ => false
  | _ => true

/-- No table in the value has a key twice. -/
inductive Distinct : Value → Prop
  | plain {v : Value} (h : v.isPlain = true) : Distinct v
  | array {headed : Bool} {items : List Value} (h : ∀ v ∈ items, Distinct v) :
    Distinct (.array headed items)
  | table {origin : Origin} {es : List (String × Value)} (hkeys : (es.map (·.1)).Nodup)
    (h : ∀ e ∈ es, Distinct e.2) : Distinct (.table origin es)

end Value

namespace Entries

/-- Each key stands once, here and in all tables below. -/
structure Distinct (es : Entries) : Prop where
  keys : (es.map (·.1)).Nodup
  values : ∀ e ∈ es, e.2.Distinct

variable {es es' : Entries} {k : String} {v : Value}

/-- A table has its keys once if its entries do. -/
theorem distinct_table {origin : Origin} : (Value.table origin es).Distinct ↔ es.Distinct := by
  constructor
  · intro h
    cases h with
    | plain h => cases h
    | table hkeys h => exact ⟨hkeys, h⟩
  · intro h
    exact .table h.keys h.values

/-- An array has keys once if all its items do. -/
theorem distinct_array {headed : Bool} {items : List Value} :
    (Value.array headed items).Distinct ↔ ∀ v ∈ items, v.Distinct := by
  constructor
  · intro h
    cases h with
    | plain h => cases h
    | array h => exact h
  · exact .array

@[simp] theorem find?_nil (k : String) : find? [] k = none := rfl

@[simp] theorem find?_cons (e : String × Value) (es : Entries) (k : String) :
    find? (e :: es) k = if k = e.1 then some e.2 else es.find? k := by
  obtain ⟨j, u⟩ := e
  unfold find?
  by_cases h : k = j
  · rw [h, List.lookup_cons_self, if_pos rfl]
  · rw [List.lookup_cons, beq_eq_false_iff_ne.2 h, if_neg h]

/-- What is found stands in the table. -/
theorem mem_of_find? (h : es.find? k = some v) : (k, v) ∈ es := by
  obtain ⟨before, after, rfl, -⟩ := List.lookup_eq_some_iff.1 h
  exact List.mem_append_right _ List.mem_cons_self

/-- Nothing is found under a key that does not stand in the table. -/
theorem find?_eq_none : es.find? k = none ↔ k ∉ es.map (·.1) := by
  unfold find?
  rw [List.lookup_eq_none_iff, List.mem_map]
  constructor
  · rintro h ⟨e, he, rfl⟩
    simpa using h e he
  · intro h e he
    rw [bne_iff_ne]
    rintro rfl
    exact h ⟨e, he, rfl⟩

/-- Of a key that stands once, what is found is what stands there. -/
theorem find?_of_mem (hkeys : (es.map (·.1)).Nodup) (h : (k, v) ∈ es) : es.find? k = some v := by
  cases hfind : es.find? k with
  | none => exact absurd (List.mem_map_of_mem h) (find?_eq_none.1 hfind)
  | some u =>
    have heq := List.inj_on_of_nodup_map hkeys (mem_of_find? hfind) h rfl
    rw [(Prod.mk.inj heq).2]

/-- Without entries no key stands twice. -/
theorem distinct_nil : Distinct [] := ⟨List.nodup_nil, nofun⟩

/-! ## Changes -/

/-- An entry under a new key may be added. -/
theorem Distinct.concat (h : es.Distinct) (hk : k ∉ es.map (·.1)) (hv : v.Distinct) :
    Distinct (es ++ [(k, v)]) where
  keys := by
    rw [List.map_append, List.nodup_append]
    refine ⟨h.keys, List.nodup_singleton _, ?_⟩
    rintro j hj _ hmem rfl
    rw [List.mem_singleton.1 hmem] at hj
    exact hk hj
  values e he := by
    rcases List.mem_append.1 he with hold | hnew
    · exact h.values e hold
    · rw [List.mem_singleton.1 hnew]
      exact hv

/-- An entry may be put in the place of the one with its key. -/
theorem Distinct.put (h : es.Distinct) (hv : v.Distinct) : Distinct (es.put k v) := by
  unfold Entries.put
  split
  · -- an entry that is replaced keeps its key
    have hkeys : (es.map fun e => if e.1 = k then (k, v) else e).map (·.1) = es.map (·.1) := by
      rw [List.map_map]
      refine List.map_congr_left fun e _ => ?_
      show (if e.1 = k then (k, v) else e).1 = e.1
      split
      · next heq => exact heq.symm
      · rfl
    refine ⟨hkeys ▸ h.keys, fun e he => ?_⟩
    obtain ⟨e', he', rfl⟩ := List.mem_map.1 he
    split
    · exact hv
    · exact h.values e' he'
  · next hnone =>
    refine h.concat (fun hmem => hnone ?_) hv
    obtain ⟨e, he, rfl⟩ := List.mem_map.1 hmem
    exact List.any_eq_true.2 ⟨e, he, beq_self_eq_true _⟩

/-- Without one of the entries the others have their keys once. -/
theorem Distinct.remove (h : es.Distinct) (k : String) : Distinct (es.remove k) where
  keys := h.keys.sublist (List.filter_sublist.map _)
  values e he := h.values e (List.mem_filter.1 he).1

/-- What is found has its keys once. -/
theorem Distinct.find? (h : es.Distinct) (hfind : es.find? k = some v) : v.Distinct :=
  h.values _ (mem_of_find? hfind)

/-- The same for a table that is found. -/
theorem Distinct.inner {origin : Origin} {inner : Entries} (h : es.Distinct)
    (hfind : es.find? k = some (.table origin inner)) : inner.Distinct :=
  distinct_table.1 (h.find? hfind)

/-- A change made to one table below keeps keys distinct if it keeps those of that table so. -/
theorem distinct_within {dotted : Bool} {act : Origin → Entries → Option Entries}
    (hact : ∀ o es es', es.Distinct → act o es = some es' → Distinct es') {path : List String}
    {origin : Origin} (h : es.Distinct) (hwithin : within dotted act path origin es = some es') :
    es'.Distinct := by
  -- the path is followed from the outermost table, and each table on it is put back in its place
  induction path generalizing origin es es' with
  | nil => exact hact origin es es' h hwithin
  | cons k ks ih =>
    unfold within at hwithin
    split at hwithin
    · obtain ⟨inner, hinner, rfl⟩ := Option.map_eq_some_iff.1 hwithin
      exact h.put (distinct_table.2 (ih distinct_nil hinner))
    · cases hwithin
    · cases hwithin
    · next o inner hfind =>
      split at hwithin
      · cases hwithin
      · obtain ⟨inner', hinner, rfl⟩ := Option.map_eq_some_iff.1 hwithin
        exact h.put (distinct_table.2 (ih (h.inner hfind) hinner))
    -- of an array of tables the last one is opened, and the others stay as they are
    · next items hfind =>
      split at hwithin
      · next o inner hlast =>
        obtain ⟨inner', hinner, rfl⟩ := Option.map_eq_some_iff.1 hwithin
        have hitems := distinct_array.1 (h.find? hfind)
        have hlast' := hitems _ (List.mem_of_getLast? hlast)
        refine h.put (distinct_array.2 fun v hv => ?_)
        rcases List.mem_append.1 hv with hold | hnew
        · exact hitems v (List.dropLast_subset _ hold)
        · rw [List.mem_singleton.1 hnew]
          exact distinct_table.2 (ih (distinct_table.1 hlast') hinner)
      · cases hwithin
    · cases hwithin

/-- A key that is added at the end of a path is a new one there. -/
theorem distinct_addKey {path : List String} {origin : Origin} (h : es.Distinct) (hv : v.Distinct)
    (hadd : addKey path k v origin es = some es') : es'.Distinct := by
  refine distinct_within (fun o inner inner' hinner hact => ?_) h hadd
  split at hact
  · cases hact
  · next hnew =>
    rw [Bool.or_eq_true, not_or, Option.not_isSome_iff_eq_none] at hnew
    rw [← Option.some.inj hact]
    exact hinner.concat (find?_eq_none.1 hnew.2) hv

/-- A header makes a table only where the key is new. -/
theorem distinct_openTable (h : es.Distinct) (hopen : openTable k es = some es') : es'.Distinct := by
  unfold openTable at hopen
  split at hopen
  · next hfind =>
    rw [← Option.some.inj hopen]
    exact h.concat (find?_eq_none.1 hfind) (distinct_table.2 distinct_nil)
  · next inner hfind =>
    -- the table that is opened goes to the end of the others
    rw [← Option.some.inj hopen]
    refine (h.remove k).concat (fun hmem => ?_) (distinct_table.2 (h.inner hfind))
    obtain ⟨e, he, rfl⟩ := List.mem_map.1 hmem
    have hne := (List.mem_filter.1 he).2
    simp at hne
  · cases hopen

/-- A header of an array adds an element to it, or makes one where the key is new. -/
theorem distinct_openElement (h : es.Distinct) (hopen : openElement k es = some es') :
    es'.Distinct := by
  have hempty : (Value.table .headed []).Distinct := distinct_table.2 distinct_nil
  unfold openElement at hopen
  split at hopen
  · next hfind =>
    rw [← Option.some.inj hopen]
    refine h.concat (find?_eq_none.1 hfind) (distinct_array.2 fun v hv => ?_)
    rw [List.mem_singleton.1 hv]
    exact hempty
  · next items hfind =>
    rw [← Option.some.inj hopen]
    refine h.put (distinct_array.2 fun v hv => ?_)
    rcases List.mem_append.1 hv with hold | hnew
    · exact distinct_array.1 (h.find? hfind) v hold
    · rw [List.mem_singleton.1 hnew]
      exact hempty
  · cases hopen

/-- An entry between braces has a key that is new, or goes into a table that such an entry has made.
-/
theorem distinct_addBraced {ks : List String} (h : es.Distinct) (hv : v.Distinct)
    (hadd : addBraced v ks es = some es') : es'.Distinct := by
  fun_induction addBraced v ks es generalizing es' with
  | case1 => cases hadd
  | case2 => cases hadd
  | case3 k es hnew =>
    rw [Option.not_isSome_iff_eq_none] at hnew
    rw [← Option.some.inj hadd]
    exact h.concat (find?_eq_none.1 hnew) hv
  | case4 k ks es hks hfind ih =>
    obtain ⟨inner, hinner, rfl⟩ := Option.map_eq_some_iff.1 hadd
    exact h.put (distinct_table.2 (ih distinct_nil hinner))
  | case5 k ks es hks inner hfind ih =>
    obtain ⟨inner', hinner, rfl⟩ := Option.map_eq_some_iff.1 hadd
    exact h.put (distinct_table.2 (ih (h.inner hfind) hinner))
  | case6 => cases hadd

end Entries

/-! ## Scanners -/

namespace Scan

open Entries

variable {cs rest : Input} {v : Value}

/-- An integer that is in range holds no other value. -/
theorem isPlain_inRange? {n : Int} (h : inRange? n = some v) : v.isPlain = true := by
  unfold inRange? at h
  split at h
  · rw [← Option.some.inj h]
    rfl
  · cases h

/-- An integer in another base holds no other value. -/
theorem isPlain_based {base : Nat} {isDigit : Char → Bool} (h : based base isDigit cs = some (v, rest)) :
    v.isPlain = true := by
  obtain ⟨⟨ds, r⟩, -, h⟩ := Option.bind_eq_some_iff.1 h
  obtain ⟨u, hu, heq⟩ := Option.map_eq_some_iff.1 h
  obtain ⟨rfl, -⟩ := Prod.mk.inj heq
  exact isPlain_inRange? hu

/-- An integer holds no other value. -/
theorem isPlain_integer (h : integer cs = some (v, rest)) : v.isPlain = true := by
  unfold integer at h
  split at h
  · exact isPlain_based h
  · exact isPlain_based h
  · exact isPlain_based h
  · obtain ⟨⟨⟨negative, ds⟩, r⟩, -, h⟩ := Option.bind_eq_some_iff.1 h
    obtain ⟨u, hu, heq⟩ := Option.map_eq_some_iff.1 h
    obtain ⟨rfl, -⟩ := Prod.mk.inj heq
    exact isPlain_inRange? hu

/-- A number that is read from its parts holds no other value. -/
theorem isPlain_float? {negative : Bool} {whole fraction : List Char} {exponent : Int}
    (h : float? negative whole fraction exponent = some v) : v.isPlain = true := by
  unfold float? at h
  split at h
  · cases h
  · rw [← Option.some.inj h]
    rfl

/-- A number with a fraction or an exponent holds no other value. -/
theorem isPlain_float (h : float cs = some (v, rest)) : v.isPlain = true := by
  have hmapped : ∀ {u? : Option Value} {r : Input}, u?.map (·, r) = some (v, rest) →
      (∀ u, u? = some u → u.isPlain = true) → v.isPlain = true := by
    intro u? r heq hplain
    obtain ⟨u, hu, heq⟩ := Option.map_eq_some_iff.1 heq
    obtain ⟨rfl, -⟩ := Prod.mk.inj heq
    exact hplain u hu
  obtain ⟨⟨⟨negative, whole⟩, r⟩, -, h⟩ := Option.bind_eq_some_iff.1 h
  dsimp only at h
  split at h
  · obtain ⟨⟨fraction, r'⟩, -, h⟩ := Option.bind_eq_some_iff.1 h
    dsimp only at h
    split at h
    · obtain ⟨⟨e, r''⟩, -, h⟩ := Option.bind_eq_some_iff.1 h
      exact hmapped h fun u => isPlain_float?
    · obtain ⟨⟨e, r''⟩, -, h⟩ := Option.bind_eq_some_iff.1 h
      exact hmapped h fun u => isPlain_float?
    · exact hmapped h fun u => isPlain_float?
  · obtain ⟨⟨e, r''⟩, -, h⟩ := Option.bind_eq_some_iff.1 h
    exact hmapped h fun u => isPlain_float?

/-- Infinity and what is no number hold no other value. -/
theorem isPlain_special (h : special cs = some (v, rest)) : v.isPlain = true := by
  unfold special at h
  dsimp only at h
  split at h
  · rw [← (Prod.mk.inj (Option.some.inj h)).1]
    rfl
  · rw [← (Prod.mk.inj (Option.some.inj h)).1]
    rfl
  · cases h

/-- A date or a time holds no other value. -/
theorem isPlain_moment (h : moment cs = some (v, rest)) : v.isPlain = true := by
  unfold moment at h
  split at h
  · rw [← (Prod.mk.inj (Option.some.inj h)).1]
    rfl
  · obtain ⟨r, -, heq⟩ := Option.map_eq_some_iff.1 h
    rw [← (Prod.mk.inj heq).1]
    rfl

/-- A truth value holds no other value. -/
theorem isPlain_boolean (h : boolean cs = some (v, rest)) : v.isPlain = true := by
  unfold boolean at h
  split at h
  · rw [← (Prod.mk.inj (Option.some.inj h)).1]
    rfl
  · rw [← (Prod.mk.inj (Option.some.inj h)).1]
    rfl
  · cases h

/-- A text holds no other value. -/
theorem isPlain_text {s? : Scan String}
    (h : (s?.map fun (s, rest) => (Value.text s, rest)) = some (v, rest)) : v.isPlain = true := by
  obtain ⟨⟨s, r⟩, -, heq⟩ := Option.map_eq_some_iff.1 h
  rw [← (Prod.mk.inj heq).1]
  rfl

/-- What is no array and no table is read as a value that holds no other. -/
theorem isPlain_scalar (h : scalar cs = some (v, rest)) : v.isPlain = true := by
  unfold scalar at h
  split at h
  · exact isPlain_text h
  · exact isPlain_text h
  · exact isPlain_boolean h
  · exact isPlain_boolean h
  · simp only [Option.orElse_eq_orElse, Option.orElse_eq_or, Option.or_eq_some_iff] at h
    rcases h with h | ⟨-, h | ⟨-, h | ⟨-, h⟩⟩⟩
    · exact isPlain_moment h
    · exact isPlain_float h
    · exact isPlain_special h
    · exact isPlain_integer h

/-! ## Arrays and tables between braces -/

/-- What the scanner gives has each key once. -/
def GivesDistinct (element : Input → Scan Value) : Prop :=
  ∀ cs v rest, element cs = some (v, rest) → v.Distinct

variable {element : Input → Scan Value}

/-- The elements of an array have their keys once if each of them is scanned so. -/
theorem distinct_elements (helement : GivesDistinct element) {fuel : Nat} {vs : List Value}
    (h : elements element fuel cs = some (vs, rest)) : ∀ v ∈ vs, v.Distinct := by
  -- elements are read one by one, and the fuel goes down with them
  induction fuel generalizing cs vs rest with
  | zero => cases h
  | succ fuel ih =>
    obtain ⟨r, -, h⟩ := Option.bind_eq_some_iff.1 h
    split at h
    · rw [← (Prod.mk.inj (Option.some.inj h)).1]
      exact nofun
    · obtain ⟨⟨v, r'⟩, hv, h⟩ := Option.bind_eq_some_iff.1 h
      have hdistinct := helement _ v r' hv
      obtain ⟨r'', -, h⟩ := Option.bind_eq_some_iff.1 h
      split at h
      · rw [← (Prod.mk.inj (Option.some.inj h)).1]
        rintro u hu
        rwa [List.mem_singleton.1 hu]
      · obtain ⟨⟨us, r₃⟩, hus, heq⟩ := Option.map_eq_some_iff.1 h
        rw [← (Prod.mk.inj heq).1]
        rintro u hu
        rcases List.mem_cons.1 hu with rfl | hmem
        · exact hdistinct
        · exact ih hus u hmem
      · cases h

/-- The value of an entry has its keys once if values are scanned so. -/
theorem distinct_keyValue (helement : GivesDistinct element) {ks : List String}
    (h : keyValue element cs = some ((ks, v), rest)) : v.Distinct := by
  obtain ⟨⟨k, r⟩, -, h⟩ := Option.bind_eq_some_iff.1 h
  dsimp only at h
  split at h
  · obtain ⟨⟨u, r'⟩, hu, heq⟩ := Option.map_eq_some_iff.1 h
    obtain ⟨heq, -⟩ := Prod.mk.inj heq
    obtain ⟨-, rfl⟩ := Prod.mk.inj heq
    exact helement _ u r' hu
  · cases h

/-- Entries between braces have their keys once. -/
theorem distinct_braced (helement : GivesDistinct element) {fuel : Nat} {es es' : Entries}
    (hes : es.Distinct) (h : braced element fuel es cs = some (es', rest)) : es'.Distinct := by
  induction fuel generalizing cs es with
  | zero => cases h
  | succ fuel ih =>
    obtain ⟨⟨⟨k, v⟩, r⟩, hkv, h⟩ := Option.bind_eq_some_iff.1 h
    obtain ⟨es₁, hadd, h⟩ := Option.bind_eq_some_iff.1 h
    have hes₁ := distinct_addBraced hes (distinct_keyValue helement hkv) hadd
    split at h
    · rwa [← (Prod.mk.inj (Option.some.inj h)).1]
    · exact ih hes₁ h
    · cases h

/-- Values that hold others have each key once if those have. -/
theorem givesDistinct_value (depth : Nat) : GivesDistinct (value depth) := by
  induction depth with
  | zero => exact fun cs v rest h => .plain (isPlain_scalar h)
  | succ depth ih =>
    intro cs v rest h
    unfold value at h
    split at h
    · obtain ⟨⟨vs, r⟩, hvs, heq⟩ := Option.map_eq_some_iff.1 h
      rw [← (Prod.mk.inj heq).1]
      exact distinct_array.2 (distinct_elements ih hvs)
    · split at h
      · rw [← (Prod.mk.inj (Option.some.inj h)).1]
        exact distinct_table.2 distinct_nil
      · obtain ⟨⟨es, r⟩, hes, heq⟩ := Option.map_eq_some_iff.1 h
        rw [← (Prod.mk.inj heq).1]
        exact distinct_table.2 (distinct_braced ih distinct_nil hes)
    · exact .plain (isPlain_scalar h)

end Scan

/-! ## Statements -/

namespace Document

open Scan Entries

variable {d d' : Document} {cs rest : Input}

/-- What is done at the end of a path keeps keys single if it does so where the path leads. -/
theorem distinct_enter {act : String → Entries → Option Entries} {path : List String}
    (hact : ∀ k es es', es.Distinct → act k es = some es' → Distinct es') (h : d.entries.Distinct)
    (henter : d.enter act path = some d') : d'.entries.Distinct := by
  obtain ⟨last, -, henter⟩ := Option.bind_eq_some_iff.1 henter
  obtain ⟨es, hes, rfl⟩ := Option.map_eq_some_iff.1 henter
  exact distinct_within (fun _ inner inner' => hact last inner inner') h hes

/-- A line of a document adds a key that is new. -/
theorem distinct_add {ks : List String} {v : Value} (h : d.entries.Distinct) (hv : v.Distinct)
    (hadd : d.add ks v = some d') : d'.entries.Distinct := by
  obtain ⟨last, -, hadd⟩ := Option.bind_eq_some_iff.1 hadd
  obtain ⟨es, hes, rfl⟩ := Option.map_eq_some_iff.1 hadd
  exact distinct_within (fun _ _ _ hinner hact => distinct_addKey hinner hv hact) h hes

/-- A statement of any kind keeps keys distinct. -/
theorem distinct_statement (h : d.entries.Distinct) (hstatement : d.statement cs = some (d', rest)) :
    d'.entries.Distinct := by
  -- both kinds of headers end their line and enter a table below
  have hheader : ∀ {act : String → Entries → Option Entries} {close : List Char} {r : Input},
      (∀ k es es', es.Distinct → act k es = some es' → Distinct es') →
      ((header close r).bind fun h => (endStatement? h.2).bind fun r =>
        (d.enter act h.1).bind fun d => some (d, r)) = some (d', rest) → d'.entries.Distinct := by
    intro act close r hact hok
    obtain ⟨_, -, hok⟩ := Option.bind_eq_some_iff.1 hok
    obtain ⟨r'', -, hok⟩ := Option.bind_eq_some_iff.1 hok
    obtain ⟨d₁, henter, hok⟩ := Option.bind_eq_some_iff.1 hok
    obtain ⟨rfl, -⟩ := Prod.mk.inj (Option.some.inj hok)
    exact distinct_enter hact h henter
  have hblank : (endStatement? cs).map (d, ·) = some (d', rest) → d'.entries.Distinct := by
    intro hok
    obtain ⟨r, -, heq⟩ := Option.map_eq_some_iff.1 hok
    rwa [← (Prod.mk.inj heq).1]
  unfold statement at hstatement
  split at hstatement
  · exact hblank hstatement
  · exact hblank hstatement
  · exact hblank hstatement
  · exact hheader (fun _ _ _ => distinct_openElement) hstatement
  · exact hheader (fun _ _ _ => distinct_openTable) hstatement
  · obtain ⟨⟨⟨k, v⟩, r⟩, hkv, hok⟩ := Option.bind_eq_some_iff.1 hstatement
    obtain ⟨r', -, hok⟩ := Option.bind_eq_some_iff.1 hok
    obtain ⟨d₁, hadd, hok⟩ := Option.bind_eq_some_iff.1 hok
    obtain ⟨rfl, -⟩ := Prod.mk.inj (Option.some.inj hok)
    exact distinct_add h (distinct_keyValue (givesDistinct_value _) hkv) hadd

/-- Keys stay single over all lines of a document. -/
theorem distinct_statements {fuel : Nat} (h : d.entries.Distinct)
    (hok : statements fuel d cs = some d') : d'.entries.Distinct := by
  induction fuel generalizing d cs with
  | zero => cases hok
  | succ fuel ih =>
    unfold statements at hok
    split at hok
    · rwa [← Option.some.inj hok]
    · obtain ⟨⟨d₁, r⟩, hstatement, hok⟩ := Option.bind_eq_some_iff.1 hok
      exact ih (distinct_statement h hstatement) hok

/-- Every table of a document has each key once. -/
theorem distinct_of_parse? {text : String} {es : Entries} (h : parse? text = some es) :
    es.Distinct := by
  obtain ⟨d, hd, rfl⟩ := Option.map_eq_some_iff.1 h
  exact distinct_statements distinct_nil hd

end Document

end TieredState.Toml
