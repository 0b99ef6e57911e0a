import TieredState.Proofs.GeneratedItems

/-!
# Manifests of a single instance

A runtime without instance support has nothing that is one per instance: what its manifest would place
in the per-instance tier is to be global. The placement of an entry is read that way. A tier that an
entry names is taken as it is named, so the per-instance tier can still be asked for by name.

* `Tier.classify_false` — a placement gives the tier that it gives with instance support, collapsed.
* `Manifest.single_tiers` — what becomes of each entry and of the generated structures: only an entry
  that names the per-instance tier, and says nothing of its placement, has a field in it.
* `Manifest.named_stays` — such an entry is accepted.
-/

namespace TieredState

/-- The tier where there is a single instance. -/
def Tier.collapse : Tier → Tier
  | perInstance => global
  | t => t

/-- Without instance support, what would be per instance is global. -/
theorem Tier.classify_false (p : Placement) : classify p false = (classify p true).collapse := by
  unfold classify
  cases p.beforeInstance <;> cases p.perThread <;> rfl

/-- Where there are no instances, no field is per instance. -/
theorem Tier.classify_false_ne (p : Placement) : classify p false ≠ perInstance := by
  rw [classify_false]
  cases classify p true <;> simp [collapse]

namespace Manifest

open Accessors

/-- The tier is one that the entry can have where there is a single instance: that of its placement,
collapsed, if it names none, and the per-instance tier only if it names that and is not placed. -/
structure SingleTier (e : FieldEntry) (t : Tier) : Prop where
  placed : e.tier? = none → t = (Tier.classify e.placement true).collapse
  named : t = .perInstance ↔ e.tier? = some .perInstance
  unplaced : e.tier? = some .perInstance → ¬e.IsPlaced

variable {m : Manifest} {p : Policy} {e : FieldEntry}

/-- An entry that obeys the rules of a manifest of a single instance has such a tier. -/
theorem singleTier_of_lawful (hone : m.build.instances = false) (h : m.LawfulEntry e) :
    SingleTier e (e.tier m.build.instances) := by
  have hagreed := h.agreed
  unfold FieldEntry.tier
  rw [hone] at hagreed ⊢
  refine ⟨fun hnone => ?_, ⟨fun hper => ?_, fun hnamed => ?_⟩, fun hnamed hplaced => ?_⟩
  -- no placement gives the per-instance tier, so it can only have been named
  · rw [hnone, Option.getD_none, Tier.classify_false]
  · cases hnamed : e.tier? with
    | none =>
      rw [hnamed, Option.getD_none] at hper
      exact absurd hper (Tier.classify_false_ne _)
    | some t =>
      rw [hnamed, Option.getD_some] at hper
      rw [hper]
  · rw [hnamed, Option.getD_some]
  · -- a placement that agrees with the name would give the per-instance tier
    exact Tier.classify_false_ne _ (hagreed .perInstance hnamed hplaced).symm

/-- Where there is a single instance, every entry that is accepted has the tier of its placement,
collapsed, unless it names another. The per-instance tier has the fields of exactly those entries that
name it, none of which says where the field is needed, and it has a structure in the generated module
exactly when there are such entries. -/
theorem single_tiers (hone : m.build.instances = false) (h : m.policy = .ok p) :
    List.Forall₂ (fun e f => SingleTier e f.tier) m.fields p.fields ∧
      ∀ source symbolStart, ∃ a, m.accessors source symbolStart = .ok a ∧
        a.declarations = heading source ++ String.join ((items p m.build).map Item.text) ∧
        ((∃ name fields, Item.struct name .perInstance fields ∈ items p m.build) ↔
          ∃ e ∈ m.fields, e.tier? = some .perInstance) := by
  have hlawful := (policy_ok_iff.1 ⟨p, h⟩).entries.each
  have htiers : List.Forall₂ (fun e f => SingleTier e f.tier) m.fields p.fields := by
    refine (lawful_describes h).imp fun e f ⟨he, hdescribes⟩ => ?_
    rw [hdescribes.tier]
    exact singleTier_of_lawful hone he
  refine ⟨htiers, fun source symbolStart => ⟨_, accessors_eq_ok_iff.2 ⟨p, h, rfl⟩,
    renderDeclarations_eq, ?_⟩⟩
  have hstruct : (∃ name fields, Item.struct name .perInstance fields ∈ items p m.build) ↔
      Tier.perInstance ∈ usedTiers p := by
    simp only [struct_mem_items]
    exact ⟨fun ⟨_, _, hused, _⟩ => hused, fun hused => ⟨_, _, hused, rfl, rfl⟩⟩
  rw [hstruct, mem_usedTiers_iff h]
  exact exists_congr fun e => and_congr_right fun he => (singleTier_of_lawful hone (hlawful e he)).named

/-- A manifest of a single instance whose entries say where their fields are needed. -/
def ofPlacements : Manifest where
  build := { instances := false }
  fields := [
    { name := "next_id", beforeInstance? := some true, type := "u64" },
    { name := "mutations", beforeInstance? := some false, type := "u64" },
    { name := "depth", perThread? := some true, type := "usize" }]

/-- What would be per instance is global where no entry names the tier, and no structure is generated
for instances. -/
theorem ofPlacements_collapse : ofPlacements.build.instances = false ∧ ∃ p,
    ofPlacements.policy = .ok p ∧ p.fields.map (·.tier) = [.global, .global, .perThread] ∧
    ∃ a, ofPlacements.accessors "m.toml" "" = .ok a ∧
      ¬∃ name fields, Item.struct name .perInstance fields ∈ items p ofPlacements.build := by
  have hone : ofPlacements.build.instances = false := rfl
  obtain ⟨a, ha, -, hstruct⟩ := (single_tiers hone rfl).2 "m.toml" ""
  refine ⟨hone, _, rfl, rfl, a, ha, ?_⟩
  rw [hstruct]
  decide

/-- A manifest of a single instance with an entry that names the per-instance tier. -/
def ofNamedTier : Manifest where
  build := { instances := false }
  fields := [{ name := "mutations", tier? := some .perInstance, type := "u64" }]

/-- Where there is a single instance, a policy may have a field that is one per instance all the
same. -/
theorem named_stays : ¬∀ (m : Manifest) (p : Policy), m.build.instances = false → m.policy = .ok p →
    ∀ f ∈ p.fields, f.tier ≠ .perInstance :=
  fun h => h ofNamedTier _ rfl rfl _ List.mem_cons_self rfl

end Manifest

end TieredState
