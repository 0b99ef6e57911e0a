import TieredState.Accessors
import TieredState.Proofs.ManifestAcceptance

/-!
# The items of the generated module

What is written for a policy is a heading and then one item after another: where there are locks, one
that imports their type and a constant for each of them, and one structure for each tier that has
fields. Which tiers have fields, and with which names, can be told from the manifest.

* `Accessors.items` — the items that are written for a policy.
* `Accessors.renderDeclarations_eq` — the text is the heading and the texts of the items.
* `Accessors.renderDeclarations_congr` — it depends on the locks and on the fields of each tier only.
* `Manifest.tierNames_eq` — the names of the fields of a tier.
-/

namespace TieredState

namespace Accessors

/-- An item of the generated module. -/
inductive Item where
  -- The type of the constants is brought into scope.
  | lockType
  | constant (l : Lock)
  -- The fields of one tier.
  | struct (name : String) (tier : Tier) (fields : List Field)
  deriving DecidableEq, Repr

/-- What is written for the item. -/
def Item.text : Item → String
  | lockType => "use tierstate::state::LockId;\n\n"
  | constant l => lockLine l
  | struct name t fields =>
    "\ntierstate::state_vars! \x7b\n    pub struct " ++ name ++ ": " ++ t.title ++ " \x7b\n" ++
      String.join (fields.map fieldClause) ++ "    \x7d\n\x7d\n"

/-- The items of the locks. -/
def lockItems (p : Policy) : List Item :=
  match p.locks with
  | [] => []
  | locks => .lockType :: locks.map .constant

/-- The tiers that have fields. -/
def usedTiers (p : Policy) : List Tier := Tier.all.filter fun t => !(p.tierFields t).isEmpty

/-- The structure of a tier. -/
def structItem (p : Policy) (build : BuildOptions) (t : Tier) : Item :=
  .struct (build.structName t) t (p.tierFields t)

/-- The items that are written for a policy. -/
def items (p : Policy) (build : BuildOptions) : List Item :=
  lockItems p ++ (usedTiers p).map (structItem p build)

/-- The first line of the module. -/
def heading (source : String) : String :=
  "// @generated by tierstate from " ++ source ++ ". Do not edit.\n\n"

variable {p : Policy} {build : BuildOptions} {source : String}

/-- The lines of the locks are the texts of their items. -/
theorem lockBlock_eq : lockBlock p = String.join ((lockItems p).map Item.text) := by
  unfold lockBlock lockItems
  cases p.locks with
  | nil => rfl
  | cons l ls =>
    rw [List.map_cons, String.join_cons, List.map_map]
    rfl

/-- The blocks of the tiers are the texts of their structures. -/
theorem tierBlocks_eq (ts : List Tier) : String.join (ts.map (tierBlock p build)) =
    String.join (((ts.filter fun t => !(p.tierFields t).isEmpty).map (structItem p build)).map
      Item.text) := by
  induction ts with
  | nil => rfl
  | cons t ts ih =>
    rw [List.map_cons, String.join_cons, ih]
    cases hfields : p.tierFields t with
    | nil =>
      have hempty : tierBlock p build t = "" := by simp only [tierBlock, hfields]
      rw [List.filter_cons_of_neg (by simp [hfields]), hempty, String.empty_append]
    | cons f fs =>
      have hblock : tierBlock p build t = (structItem p build t).text := by
        unfold tierBlock structItem
        rw [hfields]
        rfl
      rw [List.filter_cons_of_pos (by simp [hfields]), List.map_cons, List.map_cons,
        String.join_cons, hblock]

/-- The text is the heading and the texts of the items. -/
theorem renderDeclarations_eq : renderDeclarations p build source =
    heading source ++ String.join ((items p build).map Item.text) := by
  unfold renderDeclarations items usedTiers heading
  rw [lockBlock_eq, tierBlocks_eq, List.map_append, String.join_append, ← String.append_assoc]

/-- A tier is used if a field belongs to it. -/
theorem mem_usedTiers {t : Tier} : t ∈ usedTiers p ↔ ∃ f ∈ p.fields, f.tier = t := by
  have hall : t ∈ Tier.all := by cases t <;> simp [Tier.all]
  unfold usedTiers Policy.tierFields
  rw [List.mem_filter, and_iff_right hall]
  simp

/-- The constants of the module are those of the locks. -/
theorem constant_mem_items {l : Lock} : Item.constant l ∈ items p build ↔ l ∈ p.locks := by
  unfold items lockItems structItem
  cases p.locks <;> simp

/-- The structures of the module are those of the tiers that have fields, each with the fields of its
tier. -/
theorem struct_mem_items {name : String} {t : Tier} {fields : List Field} :
    Item.struct name t fields ∈ items p build ↔
      t ∈ usedTiers p ∧ name = build.structName t ∧ fields = p.tierFields t := by
  have hlocks : Item.struct name t fields ∉ lockItems p := by
    unfold lockItems
    cases p.locks <;> simp
  unfold items structItem
  rw [List.mem_append, or_iff_right hlocks, List.mem_map]
  constructor
  · rintro ⟨t', ht, heq⟩
    obtain ⟨rfl, rfl, rfl⟩ := Item.struct.inj heq
    exact ⟨ht, rfl, rfl⟩
  · rintro ⟨ht, rfl, rfl⟩
    exact ⟨t, ht, rfl⟩

/-- The declarations depend on the locks and on the fields of each tier, whatever stands between
these. -/
theorem renderDeclarations_congr {p' : Policy} (hlocks : p'.locks = p.locks)
    (htiers : ∀ t, p'.tierFields t = p.tierFields t) :
    renderDeclarations p' build source = renderDeclarations p build source := by
  have hblocks : tierBlock p' build = tierBlock p build := by
    funext t
    unfold tierBlock
    rw [htiers]
  unfold renderDeclarations lockBlock
  rw [hlocks, hblocks]

/-- The linker script depends on the exported fields only. -/
theorem renderExportScript_congr {p' : Policy} {symbolStart : String} (h : p'.exports = p.exports) :
    renderExportScript p' symbolStart = renderExportScript p symbolStart := by
  unfold renderExportScript
  rw [h]

end Accessors

namespace Manifest

open Accessors

variable {m : Manifest} {p : Policy} {t : Tier}

/-- The names of the entries of a tier, in the order of the manifest. -/
def tierNames (m : Manifest) (t : Tier) : List String :=
  (m.fields.filter fun e => e.tier m.build.instances = t).map (·.name)

/-- The fields of a tier go by the names of their entries. -/
theorem tierNames_eq (h : m.policy = .ok p) : (p.tierFields t).map (·.name) = m.tierNames t := by
  have hdescribes := (policy_parts h).describes
  unfold tierNames Policy.tierFields
  generalize m.fields = es at hdescribes
  generalize p.fields = fs at hdescribes
  induction hdescribes with
  | nil => rfl
  | @cons e f es fs hd _ ih =>
    by_cases ht : e.tier m.build.instances = t <;> simp [hd.tier, hd.name, ht, ih]

/-- The tiers that have fields are those of the entries. -/
theorem mem_usedTiers_iff (h : m.policy = .ok p) :
    t ∈ usedTiers p ↔ ∃ e ∈ m.fields, e.tier m.build.instances = t := by
  have hdescribes := (policy_parts h).describes
  rw [mem_usedTiers]
  constructor
  · rintro ⟨f, hf, rfl⟩
    obtain ⟨e, he, hd⟩ := exists_entry hdescribes hf
    exact ⟨e, he, hd.tier.symm⟩
  · rintro ⟨e, he, rfl⟩
    obtain ⟨f, hf, hd⟩ := exists_field hdescribes he
    exact ⟨f, hf, hd.tier⟩

/-- Both texts are written for the policy of the manifest. -/
theorem accessors_eq_ok_iff {source symbolStart : String} {a : Accessors} :
    m.accessors source symbolStart = .ok a ↔ ∃ p, m.policy = .ok p ∧
      a = ⟨renderDeclarations p m.build source, renderExportScript p symbolStart⟩ := by
  unfold accessors
  rw [bind_eq_ok]
  exact exists_congr fun p => and_congr_right fun _ =>
    ⟨fun h => (Except.ok.inj h).symm, fun h => congrArg Except.ok h.symm⟩

/-- What is written for a manifest that is accepted. -/
theorem accessors_parts {source symbolStart : String} {a : Accessors}
    (h : m.accessors source symbolStart = .ok a) : ∃ p, m.policy = .ok p ∧
      a.declarations = heading source ++ String.join ((items p m.build).map Item.text) ∧
      a.exportScript = renderExportScript p symbolStart := by
  obtain ⟨p, hp, rfl⟩ := accessors_eq_ok_iff.1 h
  exact ⟨p, hp, renderDeclarations_eq, rfl⟩

end Manifest

end TieredState
