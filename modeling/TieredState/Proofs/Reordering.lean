import TieredState.Proofs.GeneratedItems

/-!
# The order of a manifest's entries

Locks are written by rank and fields by tier. So nothing is left in the generated texts of the order
in which a manifest lists its locks, and of the order of its fields only that within each tier. The
policies that are built on the way may differ, and so may the faults that are found first.

* `Manifest.Reordered` — two manifests that list the same entries, those of a tier in the same order.
* `Manifest.Valid.reordered` — both are valid or none is.
* `Manifest.fields_of_tier` — the fields of a tier are those that the tier's entries describe.
* `Manifest.accessors_reordered` — both are refused, or the same texts are written for both.
-/

namespace TieredState

namespace FieldEntry

variable {e : FieldEntry} {locks locks' : List Lock} {protection protection' : Protection}

/-- A lock that is among some locks is among more. -/
theorem Guards.mono (h : e.Guards locks protection) (hsub : locks ⊆ locks') :
    e.Guards locks' protection where
  unlocked := h.unlocked
  locked n hn := by
    obtain ⟨l, hl, hrest⟩ := h.locked n hn
    exact ⟨l, hsub hl, hrest⟩

/-- Among locks that are distinct, an entry names one at most. -/
theorem Guards.unique (hlocks : Lock.Distinct locks) (h : e.Guards locks protection)
    (h' : e.Guards locks protection') : protection = protection' := by
  cases hlock : e.lock? with
  | none => rw [h.unlocked hlock, h'.unlocked hlock]
  | some n =>
    obtain ⟨l, hl, hname, hprotection⟩ := h.locked n hlock
    obtain ⟨l', hl', hname', hprotection'⟩ := h'.locked n hlock
    obtain rfl := hlocks.eq_of_name hl hl' (hname.trans hname'.symm)
    rw [hprotection, hprotection']

end FieldEntry

namespace Manifest

open Accessors

/-- The entries that resolve to the tier, in the order of the manifest. -/
def entriesOf (m : Manifest) (t : Tier) : List FieldEntry :=
  m.fields.filter fun e => e.resolveTier m.build.instances = .ok t

/-- The second manifest has the first one's build options, its locks in any order, and its fields in any
order that keeps those of the same tier in theirs. -/
structure Reordered (m m' : Manifest) : Prop where
  build : m'.build = m.build
  locks : m'.locks.Perm m.locks
  fields : m'.fields.Perm m.fields
  tiers : ∀ t, m'.entriesOf t = m.entriesOf t

variable {m m' : Manifest} {p p' : Policy} {e : FieldEntry} {f f' : Field} {t : Tier}

namespace Reordered

theorem symm (h : Reordered m m') : Reordered m' m where
  build := h.build.symm
  locks := h.locks.symm
  fields := h.fields.symm
  tiers t := (h.tiers t).symm

/-- The locks of a reordered manifest are the same in another order. -/
theorem lockList (h : Reordered m m') : m'.lockList.Perm m.lockList := h.locks.map _

/-- An entry is as lawful in a reordered manifest. -/
theorem lawfulEntry (h : Reordered m m') (he : m.LawfulEntry e) : m'.LawfulEntry e where
  identifier := he.identifier
  tiered := he.tiered
  agreed := h.build ▸ he.agreed
  declared n hn := by
    obtain ⟨l, hl, hname⟩ := he.declared n hn
    exact ⟨l, h.lockList.symm.subset hl, hname⟩
  permitted := by
    obtain ⟨hlocked, hexported, hpersistent, hconstant⟩ := he.permitted
    constructor <;> rw [h.build] <;> assumption

end Reordered

/-- The rules of a manifest do not speak of order. -/
theorem Valid.reordered (hv : m.Valid) (h : Reordered m m') : m'.Valid where
  lockNames := (h.locks.map _).nodup_iff.2 hv.lockNames
  lockRanks := (h.locks.map _).nodup_iff.2 hv.lockRanks
  lockConstants := (h.lockList.map _).nodup_iff.2 hv.lockConstants
  structNames t := h.build ▸ hv.structNames t
  entries := {
    each := fun e he => h.lawfulEntry (hv.entries.each e (h.fields.subset he))
    names := (h.fields.map _).nodup_iff.2 hv.entries.names
    kinds := fun e he e' he' => hv.entries.kinds e (h.fields.subset he) e' (h.fields.subset he') }

/-- An entry declares the same field in a reordered manifest. -/
theorem Describes.reordered (hd : m.Describes e f) (h : Reordered m m') : m'.Describes e f where
  name := hd.name
  tier := h.build ▸ hd.tier
  type := hd.type
  initial := hd.initial
  condition := hd.condition
  protection := hd.protection.mono h.lockList.symm.subset
  exported := hd.exported
  persistent := hd.persistent
  constant := hd.constant

/-- An entry describes one field. -/
theorem Describes.unique (hlocks : Lock.Distinct m.lockList) (h : m.Describes e f)
    (h' : m.Describes e f') : f = f' := by
  have hprotection := h.protection.unique hlocks h'.protection
  cases f
  cases f'
  rw [Field.mk.injEq]
  exact ⟨h.name.trans h'.name.symm, h.tier.trans h'.tier.symm, h.type.trans h'.type.symm,
    h.initial.trans h'.initial.symm, h.condition.trans h'.condition.symm, hprotection,
    h.exported.trans h'.exported.symm, h.persistent.trans h'.persistent.symm,
    h.constant.trans h'.constant.symm⟩

/-- An entry that obeys the rules resolves to the tier of its field. -/
theorem resolveTier_iff (he : m.LawfulEntry e) (h : m.Describes e f) :
    e.resolveTier m.build.instances = .ok t ↔ f.tier = t := by
  rw [FieldEntry.resolveTier_ok_iff, h.tier, and_iff_right he.tiered, and_iff_right he.agreed, eq_comm]

/-- The fields of a tier are those that its entries describe, in the order of the manifest. -/
theorem fields_of_tier (hp : m.policy = .ok p) (t : Tier) :
    List.Forall₂ m.Describes (m.entriesOf t) (p.tierFields t) := by
  have htier : ∀ e f, m.LawfulEntry e ∧ m.Describes e f →
      (decide (e.resolveTier m.build.instances = .ok t) = true ↔ decide (f.tier = t) = true) := by
    rintro e f ⟨he, hd⟩
    simpa using resolveTier_iff he hd
  exact (List.rel_filter htier (lawful_describes hp)).imp fun _ _ h => h.2

/-- The policies of both manifests have the same locks by rank and the same fields in each tier. -/
theorem Reordered.policies (h : Reordered m m') (hp : m.policy = .ok p) (hp' : m'.policy = .ok p') :
    p'.locks = p.locks ∧ ∀ t, p'.tierFields t = p.tierFields t := by
  have hmade := (policy_parts hp).madeOf
  have hmade' := (policy_parts hp').madeOf
  constructor
  · -- ranks rise strictly in both, so the same locks can only be listed one way
    have hperm : p'.locks.Perm p.locks := (hmade'.locks.trans h.lockList).trans hmade.locks.symm
    refine List.Perm.eq_of_pairwise (fun l l' _ _ hlt hgt => ?_) hmade'.sound.ranks
      hmade.sound.ranks hperm
    omega
  · intro t
    have hfields := fields_of_tier hp t
    have hfields' := fields_of_tier hp' t
    rw [h.tiers t] at hfields'
    have hdescribes := hfields'.imp fun _ _ hd => hd.reordered h.symm
    -- the entries of the tier are the same, and each of them describes one field
    have hunique : Relator.RightUnique m.Describes :=
      fun _ _ _ => Describes.unique (policy_parts hp).distinct
    exact hunique.forall₂ hdescribes hfields

/-- A manifest has its texts when it is valid. -/
theorem accessors_ok_iff {source symbolStart : String} :
    (∃ a, m.accessors source symbolStart = .ok a) ↔ m.Valid := by
  rw [← policy_ok_iff]
  simp only [accessors_eq_ok_iff]
  exact ⟨fun ⟨_, p, hp, _⟩ => ⟨p, hp⟩, fun ⟨p, hp⟩ => ⟨_, p, hp, rfl⟩⟩

/-- The order of the locks makes no difference to the generated texts, nor does that of the fields of
different tiers: both manifests are refused, or both have the same texts. -/
theorem accessors_reordered (h : Reordered m m') (source symbolStart : String) :
    (∃ e e', m.accessors source symbolStart = .error e ∧
      m'.accessors source symbolStart = .error e') ∨
    ∃ a, m.accessors source symbolStart = .ok a ∧ m'.accessors source symbolStart = .ok a := by
  cases ha : m.accessors source symbolStart with
  | error e =>
    left
    cases ha' : m'.accessors source symbolStart with
    | error e' => exact ⟨e, e', rfl, rfl⟩
    | ok a' =>
      -- a manifest that is valid in one order is valid in the other
      have hvalid : m.Valid := (accessors_ok_iff.1 ⟨a', ha'⟩).reordered h.symm
      obtain ⟨a, hok⟩ := accessors_ok_iff.2 hvalid
      rw [ha] at hok
      cases hok
  | ok a =>
    right
    obtain ⟨p, hp, rfl⟩ := accessors_eq_ok_iff.1 ha
    obtain ⟨p', hp'⟩ := policy_ok_iff.2 ((policy_ok_iff.1 ⟨p, hp⟩).reordered h)
    obtain ⟨hlocks, htiers⟩ := h.policies hp hp'
    refine ⟨_, rfl, accessors_eq_ok_iff.2 ⟨p', hp', ?_⟩⟩
    have hexports : p'.exports = p.exports := by
      rw [(policy_parts hp').madeOf.sound.exports_eq, (policy_parts hp).madeOf.sound.exports_eq, htiers]
    rw [Accessors.mk.injEq, h.build]
    exact ⟨(renderDeclarations_congr hlocks htiers).symm, (renderExportScript_congr hexports).symm⟩

/-- Two locks and fields of two tiers. -/
def inOrder : Manifest where
  locks := [⟨"registry", 10⟩, ⟨"alloc", 60⟩]
  fields := [
    { name := "registry", tier? := some .global, type := "Registry", lock? := some "registry" },
    { name := "alloc_stats", tier? := some .global, type := "AllocStats", lock? := some "alloc",
      exported := true },
    { name := "stack_depth", perThread? := some true, type := "usize" }]

/-- The same locks the other way round, and the field of the other tier before the others. -/
def outOfOrder : Manifest where
  locks := [⟨"alloc", 60⟩, ⟨"registry", 10⟩]
  fields := [
    { name := "stack_depth", perThread? := some true, type := "usize" },
    { name := "registry", tier? := some .global, type := "Registry", lock? := some "registry" },
    { name := "alloc_stats", tier? := some .global, type := "AllocStats", lock? := some "alloc",
      exported := true }]

/-- The policies of the two differ, and what is written for them does not. -/
theorem outOfOrder_same : Reordered inOrder outOfOrder ∧
    inOrder.policy.toOption.map (·.fields) ≠ outOfOrder.policy.toOption.map (·.fields) ∧
    ∃ a, inOrder.accessors "m.toml" "PL_" = .ok a ∧ outOfOrder.accessors "m.toml" "PL_" = .ok a := by
  have hreordered : Reordered inOrder outOfOrder := by
    refine ⟨rfl, by decide, by decide, fun t => ?_⟩
    cases t <;> rfl
  refine ⟨hreordered, by decide, ?_⟩
  rcases accessors_reordered hreordered "m.toml" "PL_" with ⟨e, e', he, -⟩ | hsame
  · cases he
  · exact hsame

end Manifest

end TieredState
