import Mathlib.Data.List.Nodup
import Mathlib.Data.List.Pairwise
import TieredState.Proofs.GeneratedItems

/-!
# Names in the generated module

The structure that is declared for a tier has items of its own, and three more for each field: the
reader, which has the field's name, the mutable access and the replacement. A manifest is accepted
when each of its names by itself can be declared and no two fields share one. That is not enough for
the items of a structure to have different names, nor for the structures and the imported type of
locks.

* `Accessors.Apart` — the names of fields that keep clear of each other's items and of those that
  every structure has.
* `Accessors.apart_of_plain` — names that do not look like those of accessors are apart.
* `Manifest.members_distinct_iff` — the items of a structure have different names exactly when the
  names of its fields are apart.
* `Manifest.types_distinct_iff` — the types of the module have different names exactly when the tiers
  that have fields have structures of different names, none of which is that of the imported type.
* `Manifest.members_collide`, `Manifest.types_collide` — manifests that are accepted all the same.
-/

namespace TieredState

namespace Accessors

/-- The items that each structure has: its tier, its constructor, the records of its fields and the
exchange of those that are persistent. -/
def ownMembers : List String := ["TIER", "new", "declarations", "carry_persistent"]

/-- The items that a structure has for a field. -/
def fieldMembers (field : String) : List String := [field, field ++ "_mut", "set_" ++ field]

namespace Item

/-- The names of the items that belong to the structure, if it is one. -/
def memberNames : Item → List String
  | struct _ _ fields => ownMembers ++ (fields.map (·.name)).flatMap fieldMembers
  | lockType | constant _ => []

/-- The name of the type that the item brings into the module. -/
def typeName? : Item → Option String
  | lockType => some "LockId"
  | struct name _ _ => some name
  | constant _ => none

end Item

/-- The names of fields keep clear of the items that each structure has, and of the items of one
another: no name is that of another field's mutable access or replacement, and no two fields share the
name of the replacement of the one and the mutable access of the other. -/
structure Apart (names : List String) : Prop where
  own : ∀ n ∈ names, n ∉ ownMembers
  mutable : ∀ n ∈ names, n ++ "_mut" ∉ names
  replacement : ∀ n ∈ names, "set_" ++ n ∉ names
  crossed : ∀ stem, "set_" ++ stem ∈ names → stem ++ "_mut" ∉ names

variable {names : List String} {x y n : String}

/-! ## Two names and their accessors -/

/-- A name is not that of a mutable access to itself. -/
theorem ne_mutable (x : String) : x ≠ x ++ "_mut" := by
  intro h
  have hlength := congrArg String.length h
  simp at hlength

/-- A name is not that of its own replacement. -/
theorem ne_replacement (x : String) : x ≠ "set_" ++ x := by
  intro h
  have hlength := congrArg String.length h
  simp at hlength

/-- No field's mutable access has the name of its own replacement. -/
theorem mutable_ne_replacement (x : String) : x ++ "_mut" ≠ "set_" ++ x := by
  intro h
  have hcount := congrArg (fun s : String => s.toList.count 's') h
  simp [String.toList_append] at hcount

@[simp] theorem mem_fieldMembers : n ∈ fieldMembers x ↔ n = x ∨ n = x ++ "_mut" ∨ n = "set_" ++ x := by
  simp [fieldMembers]

/-- The three items of a field have names of their own. -/
theorem nodup_fieldMembers (x : String) : (fieldMembers x).Nodup := by
  simp [fieldMembers, ne_mutable, ne_replacement, mutable_ne_replacement]

/-- Where the mutable access of one field has the name of the replacement of another, the two share a
stem. The short overlap, `set` and `mut`, is excluded because `mut` is a reserved word. -/
theorem crossed_iff (hy : Identifier.Legal y) : x ++ "_mut" = "set_" ++ y ↔
    ∃ stem, x = "set_" ++ stem ∧ y = stem ++ "_mut" := by
  constructor
  · intro h
    have hlists : x.toList ++ ['_', 'm', 'u', 't'] = ['s', 'e', 't', '_'] ++ y.toList := by
      simpa [String.toList_append] using congrArg String.toList h
    rcases List.append_eq_append_iff.1 hlists with ⟨shared, hx, hy'⟩ | ⟨stem, hx, hy'⟩
    · -- the two overlap in nothing or in an underscore
      cases shared with
      | nil =>
        refine ⟨"", ?_, ?_⟩ <;> rw [← String.toList_inj]
        · simpa using hx.symm
        · simpa using hy'.symm
      | cons c cs =>
        obtain ⟨rfl, hrest⟩ := List.cons.inj hy'
        cases cs with
        | nil =>
          have hreserved : y = "mut" := String.toList_inj.1 hrest.symm
          exact absurd (hreserved ▸ by decide) hy.notReserved
        | cons d ds =>
          obtain ⟨rfl, -⟩ := List.cons.inj hrest
          have hout : 'm' ∉ ['s', 'e', 't', '_'] := by decide
          rw [hx] at hout
          simp at hout
    · -- what the two have between the affixes is the stem
      refine ⟨String.ofList stem, ?_, ?_⟩ <;> rw [← String.toList_inj, String.toList_append]
      · simpa using hx
      · simpa using hy'
  · rintro ⟨stem, rfl, rfl⟩
    rw [String.append_assoc]

/-- The items that each structure has are no field's mutable access or replacement. -/
theorem own_ne (hn : n ∈ ownMembers) : n ≠ x ++ "_mut" ∧ n ≠ "set_" ++ x := by
  have hends : ∀ n ∈ ownMembers, ¬"_mut".toList <:+ n.toList ∧ ¬"set_".toList <+: n.toList := by
    decide
  refine ⟨fun h => (hends n hn).1 ?_, fun h => (hends n hn).2 ?_⟩ <;> rw [h, String.toList_append]
  · exact List.suffix_append _ _
  · exact List.prefix_append _ _

/-! ## All fields of a structure -/

/-- Fields have no item in common. -/
def Parted (names : List String) : Prop :=
  ∀ x ∈ names, ∀ y ∈ names, x ≠ y → (fieldMembers x).Disjoint (fieldMembers y)

/-- All items have names of their own if no two fields share one. -/
theorem nodup_flatMap_iff (hnames : names.Nodup) :
    (names.flatMap fieldMembers).Nodup ↔ Parted names := by
  rw [List.nodup_flatMap]
  constructor
  · rintro ⟨-, hpairs⟩ x hx y hy hne
    have : Std.Symm (Function.onFun List.Disjoint fieldMembers) := ⟨fun _ _ h _ hy hx => h hx hy⟩
    exact hpairs.forall hx hy hne
  · intro hparted
    exact ⟨fun x _ => nodup_fieldMembers x, hnames.pairwise_of_forall_ne hparted⟩

/-- Names that keep clear of one another share no item. -/
theorem Apart.parted (h : Apart names) (hlegal : ∀ n ∈ names, Identifier.Legal n) :
    Parted names := by
  intro x hx y hy hne n hnx hny
  have hcross : ∀ {x y}, x ∈ names → y ∈ names → x ++ "_mut" ≠ "set_" ++ y := by
    intro x y hx hy heq
    obtain ⟨stem, rfl, rfl⟩ := (crossed_iff (hlegal y hy)).1 heq
    exact h.crossed stem hx hy
  -- the name is one of three items of the one field and one of three of the other
  rw [mem_fieldMembers] at hnx hny
  rcases hnx with rfl | rfl | rfl
  · rcases hny with rfl | rfl | rfl
    · exact hne rfl
    · exact h.mutable y hy hx
    · exact h.replacement y hy hx
  · rcases hny with rfl | heq | heq
    · exact h.mutable x hx hy
    · exact hne (String.append_left_inj _ |>.1 heq)
    · exact hcross hx hy heq
  · rcases hny with rfl | heq | heq
    · exact h.replacement x hx hy
    · exact hcross hy hx heq.symm
    · exact hne (String.append_right_inj _ |>.1 heq)

/-- Names that share no item keep clear of one another. -/
theorem Parted.apart (h : Parted names) (hown : ∀ n ∈ names, n ∉ ownMembers) : Apart names where
  own := hown
  mutable n hn hn' := by
    have hshared : n ++ "_mut" ∈ fieldMembers n := by simp
    exact h n hn _ hn' (ne_mutable n) hshared (by simp)
  replacement n hn hn' := by
    have hshared : "set_" ++ n ∈ fieldMembers n := by simp
    exact h n hn _ hn' (ne_replacement n) hshared (by simp)
  crossed stem hset hmut := by
    have hshared : "set_" ++ stem ++ "_mut" ∈ fieldMembers ("set_" ++ stem) := by simp
    exact h _ hset _ hmut (mutable_ne_replacement stem).symm hshared (by simp [String.append_assoc])

/-- The items of a structure have different names exactly when the names of its fields are apart. -/
theorem nodup_members_iff (hnames : names.Nodup) (hlegal : ∀ n ∈ names, Identifier.Legal n) :
    (ownMembers ++ names.flatMap fieldMembers).Nodup ↔ Apart names := by
  rw [List.nodup_append', nodup_flatMap_iff hnames, and_iff_right (by decide)]
  constructor
  · rintro ⟨hparted, hdisjoint⟩
    exact hparted.apart fun n hn hown => hdisjoint hown (List.mem_flatMap.2 ⟨n, hn, by simp⟩)
  · intro h
    refine ⟨h.parted hlegal, fun n hown hfield => ?_⟩
    obtain ⟨x, hx, hn⟩ := List.mem_flatMap.1 hfield
    rw [mem_fieldMembers] at hn
    rcases hn with rfl | hmutable | hreplacement
    · exact h.own n hx hown
    · exact (own_ne hown).1 hmutable
    · exact (own_ne hown).2 hreplacement

/-- Names that neither begin nor end as those of accessors do, and are not those of the items that every
structure has, are apart. -/
theorem apart_of_plain (h : ∀ n ∈ names, n ∉ ownMembers ∧ ¬"_mut".toList <:+ n.toList ∧
    ¬"set_".toList <+: n.toList) : Apart names where
  own n hn := (h n hn).1
  mutable _ _ hmutable := (h _ hmutable).2.1 (String.toList_append ▸ List.suffix_append _ _)
  replacement _ _ hset := (h _ hset).2.2 (String.toList_append ▸ List.prefix_append _ _)
  crossed _ hset _ := (h _ hset).2.2 (String.toList_append ▸ List.prefix_append _ _)

/-! ## All structures of a module -/

variable {p : Policy} {build : BuildOptions}

/-- A structure of the module has the fields of its tier. -/
theorem mem_items_struct {name : String} {t : Tier} {fields : List Field}
    (h : Item.struct name t fields ∈ items p build) : fields = p.tierFields t :=
  (struct_mem_items.1 h).2.2

/-- The types of the module are that of the locks, where there are locks, and the structures of the
tiers that have fields. -/
theorem typeNames_eq : (items p build).filterMap Item.typeName? =
    (if p.locks = [] then [] else ["LockId"]) ++ (usedTiers p).map build.structName := by
  have hconstants : ∀ ls : List Lock, (ls.map Item.constant).filterMap Item.typeName? = [] := by
    intro ls
    induction ls with
    | nil => rfl
    | cons l ls ih => exact ih
  have hlocks : (lockItems p).filterMap Item.typeName? = if p.locks = [] then [] else ["LockId"] := by
    unfold lockItems
    cases p.locks with
    | nil => rfl
    | cons l ls =>
      rw [if_neg (List.cons_ne_nil l ls)]
      exact congrArg ("LockId" :: ·) (hconstants (l :: ls))
  have hstructs : ((usedTiers p).map (structItem p build)).filterMap Item.typeName? =
      (usedTiers p).map build.structName := by
    rw [List.filterMap_map, ← List.filterMap_eq_map]
    rfl
  unfold items
  rw [List.filterMap_append, hlocks, hstructs]

/-- The types have names of their own if no two structures share one, and none has that of the
imported type. -/
theorem nodup_typeNames_iff : ((items p build).filterMap Item.typeName?).Nodup ↔
    (∀ t ∈ usedTiers p, ∀ t' ∈ usedTiers p, build.structName t = build.structName t' → t = t') ∧
      (p.locks ≠ [] → ∀ t ∈ usedTiers p, build.structName t ≠ "LockId") := by
  have htiers : (usedTiers p).Nodup := (by decide : Tier.all.Nodup).filter _
  rw [typeNames_eq, List.nodup_append, List.nodup_map_iff_inj_on htiers]
  by_cases hlocks : p.locks = []
  · simp [hlocks]
  · simp [hlocks, ne_comm]

end Accessors

namespace Manifest

open Accessors

variable {m : Manifest} {source symbolStart : String} {a : Accessors}

/-- A manifest with a lock and with fields in all tiers. -/
def ofAllTiers : Manifest where
  locks := [⟨"registry", 10⟩]
  fields := [
    { name := "next_id", tier? := some .global, type := "u64", lock? := some "registry" },
    { name := "table", tier? := some .global, type := "Table", lock? := some "registry" },
    { name := "mutations", beforeInstance? := some false, type := "u64" },
    { name := "depth", perThread? := some true, type := "usize", persistent := true }]

/-- A manifest with a field that has the name of the constructor. -/
def ofNew : Manifest where
  fields := [{ name := "new", tier? := some .global, type := "u8" }]

/-- A manifest whose structure has the name of the imported type. -/
def ofLockId : Manifest where
  build := { globalStruct := "LockId" }
  locks := [⟨"registry", 10⟩]
  fields := [{ name := "table", tier? := some .global, type := "u8", lock? := some "registry" }]

/-- The structure that the field of the entry belongs to. -/
def structOf (m : Manifest) (e : FieldEntry) : String :=
  m.build.structName (e.tier m.build.instances)

/-- The items of a structure have different names exactly when the names of its fields are apart from
each other's items and from those that every structure has. Nothing else is needed of a manifest that
is accepted. -/
theorem members_distinct_iff (h : m.accessors source symbolStart = .ok a) : ∃ p, m.policy = .ok p ∧
    a.declarations = heading source ++ String.join ((items p m.build).map Item.text) ∧
    ∀ name t fields, Item.struct name t fields ∈ items p m.build →
      ((Item.struct name t fields).memberNames.Nodup ↔ Apart (m.tierNames t)) := by
  obtain ⟨p, hp, htext, -⟩ := accessors_parts h
  refine ⟨p, hp, htext, fun name t fields hmem => ?_⟩
  obtain rfl := mem_items_struct hmem
  have hnames : ((p.tierFields t).map (·.name)).Nodup :=
    (policy_parts hp).madeOf.sound.fieldNames.sublist (List.filter_sublist.map _)
  have hlegal : ∀ n ∈ (p.tierFields t).map (·.name), Identifier.Legal n := by
    rw [tierNames_eq hp]
    intro n hn
    obtain ⟨e, he, rfl⟩ := List.mem_map.1 hn
    exact ((policy_ok_iff.1 ⟨p, hp⟩).entries.each e (List.mem_filter.1 he).1).identifier
  rw [← tierNames_eq hp]
  exact nodup_members_iff hnames hlegal

/-- The structures of all three tiers are free of clashes where no field's name looks like that of an
accessor. -/
theorem ofAllTiers_members : ∃ a p, ofAllTiers.accessors "m.toml" "" = .ok a ∧
    ofAllTiers.policy = .ok p ∧ ∀ name t fields, Item.struct name t fields ∈ items p ofAllTiers.build →
      (Item.struct name t fields).memberNames.Nodup := by
  obtain ⟨p, hp, -, hmembers⟩ := members_distinct_iff
    (show ofAllTiers.accessors "m.toml" "" = .ok _ from rfl)
  refine ⟨_, p, rfl, hp, fun name t fields hmem => (hmembers name t fields hmem).2 ?_⟩
  exact apart_of_plain (by cases t <;> decide)

/-- Not every manifest that is accepted has structures whose items have different names: a field may be
called as the constructor is. -/
theorem members_collide : ¬∀ (m : Manifest) (source symbolStart : String) (a : Accessors),
    m.accessors source symbolStart = .ok a → ∀ p, m.policy = .ok p →
      ∀ i ∈ items p m.build, i.memberNames.Nodup := by
  intro h
  have hnames := h ofNew "m.toml" "" _ rfl _ rfl _ List.mem_cons_self
  revert hnames
  decide

/-- The types of the module have different names exactly when entries of different tiers belong to
structures of different names and, where there are locks, no entry belongs to a structure that has the
name of their type. -/
theorem types_distinct_iff (h : m.accessors source symbolStart = .ok a) : ∃ p, m.policy = .ok p ∧
    a.declarations = heading source ++ String.join ((items p m.build).map Item.text) ∧
    (((items p m.build).filterMap Item.typeName?).Nodup ↔
      (∀ e ∈ m.fields, ∀ e' ∈ m.fields, m.structOf e = m.structOf e' →
        e.tier m.build.instances = e'.tier m.build.instances) ∧
      (m.locks ≠ [] → ∀ e ∈ m.fields, m.structOf e ≠ "LockId")) := by
  obtain ⟨p, hp, htext, -⟩ := accessors_parts h
  refine ⟨p, hp, htext, ?_⟩
  -- the policy has the manifest's locks in another order, so it has some when the manifest does
  have hlocks : p.locks ≠ [] ↔ m.locks ≠ [] := by
    have hperm := (policy_parts hp).madeOf.locks
    rw [ne_eq, ne_eq, ← List.length_eq_zero_iff, hperm.length_eq, lockList, List.length_map,
      List.length_eq_zero_iff]
  rw [nodup_typeNames_iff, hlocks]
  simp only [mem_usedTiers_iff hp, structOf]
  constructor
  · rintro ⟨hstructs, htype⟩
    exact ⟨fun e he e' he' => hstructs _ ⟨e, he, rfl⟩ _ ⟨e', he', rfl⟩,
      fun hsome e he => htype hsome _ ⟨e, he, rfl⟩⟩
  · rintro ⟨hstructs, htype⟩
    refine ⟨?_, ?_⟩
    · rintro t ⟨e, he, rfl⟩ t' ⟨e', he', rfl⟩
      exact hstructs e he e' he'
    · rintro hsome t ⟨e, he, rfl⟩
      exact htype hsome e he

/-- The names that structures have where the manifest gives none are different from each other and from
that of the type of locks. -/
theorem ofAllTiers_types : ∃ a p, ofAllTiers.accessors "m.toml" "" = .ok a ∧
    ofAllTiers.policy = .ok p ∧ ((items p ofAllTiers.build).filterMap Item.typeName?).Nodup := by
  obtain ⟨p, hp, -, htypes⟩ := types_distinct_iff
    (show ofAllTiers.accessors "m.toml" "" = .ok _ from rfl)
  exact ⟨_, p, rfl, hp, htypes.2 ⟨by decide, by decide⟩⟩

/-- Not every manifest that is accepted has types of different names: a structure may be called as the
type of locks is. -/
theorem types_collide : ¬∀ (m : Manifest) (source symbolStart : String) (a : Accessors),
    m.accessors source symbolStart = .ok a → ∀ p, m.policy = .ok p →
      ((items p m.build).filterMap Item.typeName?).Nodup := by
  intro h
  have hnames := h ofLockId "m.toml" "" _ rfl _ rfl
  revert hnames
  decide

end Manifest

end TieredState
