import Mathlib.Data.List.Forall2
import TieredState.Manifest.Policy
import TieredState.Proofs.PolicyAcceptance

/-!
# Which manifests make a policy

A manifest is checked in three places: its locks and the names it generates, then entry by entry what
the entry says of itself, then what the policy makes of the resulting field. Each place stops at the
first fault it finds. What passes all of them can be told from the manifest alone.

* `Identifier.Legal` — the names that generated code can declare.
* `Manifest.Valid` — the rules of a manifest.
* `Manifest.Describes` — the field that an entry stands for.
* `Manifest.policy_iff_valid` — a manifest makes a policy exactly when it is valid, and then the policy
  has one field for each entry in the same order, and the manifest's locks by rank.
-/

namespace TieredState

namespace Identifier

/-- A name that generated code can declare. Letters and digits are those of ASCII. -/
structure Legal (name : String) : Prop where
  shape : ∃ c cs, name.toList = c :: cs ∧ (c.isAlpha ∨ c = '_') ∧ ∀ d ∈ cs, d.isAlphanum ∨ d = '_'
  notLone : name ≠ "_"
  notReserved : name ∉ keywords

/-- The check of a name accepts exactly the legal ones. -/
theorem isValid_iff {name : String} : isValid name = true ↔ Legal name := by
  unfold isValid
  cases hname : name.toList with
  | nil =>
    refine ⟨fun h => by simp at h, fun h => ?_⟩
    obtain ⟨c, cs, hcs, -⟩ := h.shape
    rw [hname] at hcs
    cases hcs
  | cons c cs =>
    simp only [Bool.and_eq_true, Bool.or_eq_true, List.all_eq_true, decide_eq_true_eq,
      Bool.not_eq_true', List.contains_eq_mem, decide_eq_false_iff_not]
    constructor
    · rintro ⟨⟨⟨hc, hcs⟩, hlone⟩, hreserved⟩
      exact ⟨⟨c, cs, hname, hc, hcs⟩, hlone, hreserved⟩
    · rintro ⟨⟨c', cs', heq, hc, hcs⟩, hlone, hreserved⟩
      obtain ⟨rfl, rfl⟩ := List.cons.inj (hname.symm.trans heq)
      exact ⟨⟨⟨hc, hcs⟩, hlone⟩, hreserved⟩

end Identifier

namespace FieldEntry

/-- The entry says of one axis at least where the field is needed. -/
def IsPlaced (e : FieldEntry) : Prop := e.beforeInstance?.isSome ∨ e.perThread?.isSome

/-- Where the field is needed. An axis that is left out counts as no. -/
def placement (e : FieldEntry) : Placement := ⟨e.beforeInstance?.getD false, e.perThread?.getD false⟩

/-- The field's tier: the one that the entry names, or else the one that its placement gives. -/
def tier (e : FieldEntry) (instancesSupported : Bool) : Tier :=
  e.tier?.getD (Tier.classify e.placement instancesSupported)

variable {e : FieldEntry} {instances : Bool} {t : Tier} {locks : List Lock} {protection : Protection}

/-- An entry that says where the field is needed has a placement. -/
theorem placement?_of_placed (h : e.IsPlaced) : e.placement? = some e.placement := by
  unfold placement?
  split
  · next hbefore hthread => simp [IsPlaced, hbefore, hthread] at h
  · rfl

/-- An entry that does not say so has none. -/
theorem placement?_of_not_placed (h : ¬e.IsPlaced) : e.placement? = none := by
  obtain ⟨hbefore, hthread⟩ := not_or.1 h
  unfold placement?
  rw [Option.not_isSome_iff_eq_none.1 hbefore, Option.not_isSome_iff_eq_none.1 hthread]

/-- A tier is found when the entry names one or is placed, and the two agree where there are both. -/
theorem resolveTier_ok_iff : e.resolveTier instances = .ok t ↔
    (e.tier?.isSome ∨ e.IsPlaced) ∧
      (∀ t', e.tier? = some t' → e.IsPlaced → t' = Tier.classify e.placement instances) ∧
      t = e.tier instances := by
  unfold resolveTier tier
  by_cases hplaced : e.IsPlaced
  · rw [placement?_of_placed hplaced]
    cases e.tier? with
    | none => simp [hplaced, eq_comm]
    | some t' =>
      by_cases hagree : t' = Tier.classify e.placement instances <;> simp [hplaced, hagree, eq_comm]
  · rw [placement?_of_not_placed hplaced]
    cases e.tier? <;> simp [hplaced, eq_comm]

/-- The lock that the entry names is one of the locks, and guards the field as the entry says. -/
structure Guards (e : FieldEntry) (locks : List Lock) (protection : Protection) : Prop where
  unlocked : e.lock? = none → protection = .unlocked
  locked : ∀ n, e.lock? = some n → ∃ l ∈ locks, l.name = n ∧
    protection = if e.readMostly then .readMostly l else .mutex l

/-- The protection that an entry is resolved to is by the lock that it names. -/
theorem guards_of_resolve (h : e.resolveProtection locks = .ok protection) :
    e.Guards locks protection := by
  unfold resolveProtection at h
  split at h
  · next hnone => exact ⟨fun _ => (Except.ok.inj h).symm, fun n hn => by simp [hnone] at hn⟩
  · next name hsome =>
    split at h
    · cases h
    · next l hfind =>
      refine ⟨fun hnone => by simp [hsome] at hnone, fun n hn => ?_⟩
      obtain rfl := Option.some.inj (hsome.symm.trans hn)
      exact ⟨l, List.mem_of_find?_eq_some hfind, by simpa using List.find?_some hfind,
        (Except.ok.inj h).symm⟩

/-- A protection is found when the lock that the entry names is declared. -/
theorem resolveProtection_ok_iff : (∃ protection, e.resolveProtection locks = .ok protection) ↔
    ∀ n, e.lock? = some n → ∃ l ∈ locks, l.name = n := by
  constructor
  · rintro ⟨protection, h⟩ n hn
    obtain ⟨l, hl, hname, -⟩ := (guards_of_resolve h).locked n hn
    exact ⟨l, hl, hname⟩
  · intro hdeclared
    unfold resolveProtection
    cases hlock : e.lock? with
    | none => exact ⟨_, rfl⟩
    | some n =>
      obtain ⟨l, hl, hname⟩ := hdeclared n hlock
      cases hfind : locks.find? (·.name = n) with
      | some l' => exact ⟨_, by simp only [hfind]; rfl⟩
      | none => simpa [hname] using List.find?_eq_none.1 hfind l hl

namespace Guards

variable {l : Lock} {n : String}

/-- The field has a lock when the entry names one, the lock of that name. -/
theorem lock?_eq_some (h : e.Guards locks protection) :
    protection.lock? = some l → l ∈ locks ∧ e.lock? = some l.name := by
  intro hl
  cases hlock : e.lock? with
  | none => simp [h.unlocked hlock, Protection.lock?] at hl
  | some n =>
    obtain ⟨l', hl', rfl, hp⟩ := h.locked n hlock
    have hsame : l' = l := by
      cases hread : e.readMostly <;> simpa [hp, hread, Protection.lock?] using hl
    exact ⟨hsame ▸ hl', by rw [hsame]⟩

/-- The lock that an entry names is found among the locks. -/
theorem exists_lock (h : e.Guards locks protection) (hn : e.lock? = some n) :
    ∃ l ∈ locks, l.name = n ∧ protection.lock? = some l := by
  obtain ⟨l, hl, hname, hp⟩ := h.locked n hn
  refine ⟨l, hl, hname, ?_⟩
  cases hread : e.readMostly <;> simp [hp, hread, Protection.lock?]

/-- A field is without a lock if its entry names none. -/
theorem lock?_eq_none (h : e.Guards locks protection) :
    protection.lock? = none ↔ e.lock? = none := by
  constructor
  · intro hnone
    refine Option.eq_none_iff_forall_ne_some.2 fun n hn => ?_
    obtain ⟨l, -, -, hl⟩ := h.exists_lock hn
    simp [hnone] at hl
  · intro hnone
    rw [h.unlocked hnone]
    rfl

/-- The protection is of the kind that the entry asks for. -/
theorem kind (h : e.Guards locks protection) (hn : e.lock? = some n) :
    protection.kind = if e.readMostly then .readMostly else .mutex := by
  obtain ⟨l, -, -, hp⟩ := h.locked n hn
  cases hread : e.readMostly <;> simp [hp, hread, Protection.kind]

end Guards

end FieldEntry

namespace Manifest

/-- The entry asks for nothing but what the tier that it has allows. -/
structure Permitted (m : Manifest) (e : FieldEntry) : Prop where
  locked : e.lock?.isSome → e.tier m.build.instances = .global
  exported : e.exported → e.tier m.build.instances = .global
  persistent : e.persistent → e.tier m.build.instances = .perThread
  constant : e.constant → e.tier m.build.instances = .global ∧ e.lock? = none

/-- The entry obeys the rules that concern it alone: generated code can declare its name, its tier can
be told, its lock is declared, and it asks for what it may have. -/
structure LawfulEntry (m : Manifest) (e : FieldEntry) : Prop where
  identifier : Identifier.Legal e.name
  tiered : e.tier?.isSome ∨ e.IsPlaced
  agreed : ∀ t, e.tier? = some t → e.IsPlaced → t = Tier.classify e.placement m.build.instances
  declared : ∀ n, e.lock? = some n → ∃ l ∈ m.lockList, l.name = n
  permitted : m.Permitted e

/-- The entries obey the rules of fields: names are unique, and a lock that guards several fields
guards all of them the same way. -/
structure LawfulEntries (m : Manifest) (es : List FieldEntry) : Prop where
  each : ∀ e ∈ es, m.LawfulEntry e
  names : (es.map (·.name)).Nodup
  kinds : ∀ e ∈ es, ∀ e' ∈ es, ∀ n, e.lock? = some n → e'.lock? = some n →
    e.readMostly = e'.readMostly

/-- The rules of a manifest. -/
structure Valid (m : Manifest) : Prop where
  lockNames : (m.locks.map (·.name)).Nodup
  lockRanks : (m.locks.map (·.rank)).Nodup
  lockConstants : (m.lockList.map (·.constantName)).Nodup
  structNames : ∀ t, Identifier.Legal (m.build.structName t)
  entries : m.LawfulEntries m.fields

/-- The field is the one that the entry declares: it has the tier that is resolved, the lock of the
name that the entry gives, and all else as the entry has it. -/
structure Describes (m : Manifest) (e : FieldEntry) (f : Field) : Prop where
  name : f.name = e.name
  tier : f.tier = e.tier m.build.instances
  type : f.type = e.type
  initial : f.initial? = e.initial?
  condition : f.condition? = e.condition?
  protection : e.Guards m.lockList f.protection
  exported : f.exported = e.exported
  persistent : f.persistent = e.persistent
  constant : f.constant = e.constant

variable {m : Manifest} {p p' : Policy} {e : FieldEntry} {es es' : List FieldEntry}
variable {f : Field} {fs : List Field}

/-! ## One entry -/

/-- The field that an entry is resolved to is the one that it declares. -/
theorem describes_of_resolve (h : e.resolve m.lockList m.build.instances = .ok f) :
    m.Describes e f := by
  obtain ⟨t, htier, h⟩ := bind_eq_ok.1 h
  obtain ⟨protection, hprotection, h⟩ := bind_eq_ok.1 h
  obtain rfl := Except.ok.inj h
  exact ⟨rfl, (FieldEntry.resolveTier_ok_iff.1 htier).2.2, rfl, rfl, rfl,
    FieldEntry.guards_of_resolve hprotection, rfl, rfl, rfl⟩

/-- An entry is resolved when its tier and its lock can be told. -/
theorem resolve_ok_iff : (∃ f, e.resolve m.lockList m.build.instances = .ok f) ↔
    (e.tier?.isSome ∨ e.IsPlaced) ∧
      (∀ t, e.tier? = some t → e.IsPlaced → t = Tier.classify e.placement m.build.instances) ∧
      ∀ n, e.lock? = some n → ∃ l ∈ m.lockList, l.name = n := by
  constructor
  · rintro ⟨f, h⟩
    obtain ⟨t, htier, h⟩ := bind_eq_ok.1 h
    obtain ⟨protection, hprotection, -⟩ := bind_eq_ok.1 h
    obtain ⟨htiered, hagreed, -⟩ := FieldEntry.resolveTier_ok_iff.1 htier
    exact ⟨htiered, hagreed, FieldEntry.resolveProtection_ok_iff.1 ⟨protection, hprotection⟩⟩
  · rintro ⟨htiered, hagreed, hdeclared⟩
    have htier := FieldEntry.resolveTier_ok_iff.2 ⟨htiered, hagreed, rfl⟩
    obtain ⟨protection, hprotection⟩ := FieldEntry.resolveProtection_ok_iff.2 hdeclared
    exact ⟨_, bind_eq_ok.2 ⟨_, htier, bind_eq_ok.2 ⟨protection, hprotection, rfl⟩⟩⟩

/-- The check of an identifier fails only for a name that is not legal. -/
theorem checkIdentifier_ok_iff {name : String} {u : Unit} :
    checkIdentifier name = .ok u ↔ Identifier.Legal name := by
  unfold checkIdentifier
  rw [← Identifier.isValid_iff]
  cases Identifier.isValid name <;> simp

/-- What the entry may have is what the field may have. -/
theorem Describes.lawful_iff (h : m.Describes e f) : f.Lawful m.lockList ↔ m.Permitted e := by
  constructor
  · intro hf
    refine ⟨fun hlock => ?_, fun he => ?_, fun hp => ?_, fun hc => ?_⟩
    · obtain ⟨n, hn⟩ := Option.isSome_iff_exists.1 hlock
      obtain ⟨l, -, -, hl⟩ := h.protection.exists_lock hn
      exact h.tier ▸ (hf.locked l hl).1
    · exact h.tier ▸ hf.exported (h.exported.trans he)
    · exact h.tier ▸ hf.persistent (h.persistent.trans hp)
    · obtain ⟨htier, hlock⟩ := hf.constant (h.constant.trans hc)
      exact ⟨h.tier ▸ htier, h.protection.lock?_eq_none.1 hlock⟩
  · intro he
    refine ⟨fun l hl => ?_, fun hx => ?_, fun hp => ?_, fun hc => ?_⟩
    · obtain ⟨hdeclared, hlock⟩ := h.protection.lock?_eq_some hl
      refine ⟨h.tier.trans (he.locked (by simp [hlock])), Bool.eq_false_iff.2 fun hc => ?_, hdeclared⟩
      rw [(he.constant (h.constant.symm.trans hc)).2] at hlock
      cases hlock
    · exact h.tier.trans (he.exported (h.exported.symm.trans hx))
    · exact h.tier.trans (he.persistent (h.persistent.symm.trans hp))
    · obtain ⟨htier, hlock⟩ := he.constant (h.constant.symm.trans hc)
      exact ⟨h.tier.trans htier, h.protection.lock?_eq_none.2 hlock⟩

/-! ## Entries and their fields -/

/-- Every entry has its field. -/
theorem exists_field (h : List.Forall₂ m.Describes es fs) (he : e ∈ es) :
    ∃ f ∈ fs, m.Describes e f :=
  exists_related h he

/-- Every field has its entry. -/
theorem exists_entry (h : List.Forall₂ m.Describes es fs) (hf : f ∈ fs) :
    ∃ e ∈ es, m.Describes e f :=
  exists_related h.flip hf

/-- Fields go by the names of their entries. -/
theorem names_eq (h : List.Forall₂ m.Describes es fs) : fs.map (·.name) = es.map (·.name) := by
  have hnames : List.Forall₂ (· = ·) (fs.map (·.name)) (es.map (·.name)) := by
    rw [List.forall₂_map_left_iff, List.forall₂_map_right_iff]
    exact h.flip.imp fun _ _ hdescribes => hdescribes.name
  rwa [List.forall₂_eq_eq_eq] at hnames

/-- Entries are in order exactly when their fields fit together. -/
theorem wellFormed_iff (hlocks : Lock.Distinct m.lockList) (h : List.Forall₂ m.Describes es fs) :
    Policy.WellFormed m.lockList fs ↔ (∀ e ∈ es, m.Permitted e) ∧ (es.map (·.name)).Nodup ∧
      ∀ e ∈ es, ∀ e' ∈ es, ∀ n, e.lock? = some n → e'.lock? = some n →
        e.readMostly = e'.readMostly := by
  rw [← names_eq h]
  constructor
  · intro hfits
    refine ⟨fun e he => ?_, hfits.names, fun e he e' he' n hn hn' => ?_⟩
    · obtain ⟨f, hf, hdescribes⟩ := exists_field h he
      exact hdescribes.lawful_iff.1 (hfits.lawful f hf)
    · obtain ⟨f, hf, hdescribes⟩ := exists_field h he
      obtain ⟨f', hf', hdescribes'⟩ := exists_field h he'
      obtain ⟨l, hl, hname, hlock⟩ := hdescribes.protection.exists_lock hn
      obtain ⟨l', hl', hname', hlock'⟩ := hdescribes'.protection.exists_lock hn'
      -- both entries name the lock, so both fields have it
      obtain rfl := hlocks.eq_of_name hl hl' (hname.trans hname'.symm)
      have hkind := hfits.kinds f hf f' hf' l hlock hlock'
      rw [hdescribes.protection.kind hn, hdescribes'.protection.kind hn'] at hkind
      cases hread : e.readMostly <;> cases hread' : e'.readMostly <;> simp_all
  · rintro ⟨hpermitted, hnames, hkinds⟩
    refine ⟨hlocks, hnames, fun f hf => ?_, fun f hf f' hf' l hl hl' => ?_⟩
    · obtain ⟨e, he, hdescribes⟩ := exists_entry h hf
      exact hdescribes.lawful_iff.2 (hpermitted e he)
    · -- fields of one lock are those of entries that name it
      obtain ⟨e, he, hdescribes⟩ := exists_entry h hf
      obtain ⟨e', he', hdescribes'⟩ := exists_entry h hf'
      have hn := (hdescribes.protection.lock?_eq_some hl).2
      have hn' := (hdescribes'.protection.lock?_eq_some hl').2
      rw [hdescribes.protection.kind hn, hdescribes'.protection.kind hn', hkinds e he e' he' _ hn hn']

/-! ## One entry after the other -/

/-- The policy is that of the manifest's locks and of the fields of the entries. -/
structure HasEntries (m : Manifest) (es : List FieldEntry) (p : Policy) : Prop where
  madeOf : p.MadeOf m.lockList p.fields
  describes : List.Forall₂ m.Describes es p.fields

theorem LawfulEntries.empty : m.LawfulEntries [] where
  each _ he := absurd he List.not_mem_nil
  names := List.nodup_nil
  kinds _ he := absurd he List.not_mem_nil

/-- The first of some lawful entries are lawful among themselves. -/
theorem LawfulEntries.start (h : m.LawfulEntries (es ++ es')) : m.LawfulEntries es where
  each e he := h.each e (List.mem_append_left _ he)
  names := h.names.sublist ((List.sublist_append_left _ _).map _)
  kinds e he e' he' := h.kinds e (List.mem_append_left _ he) e' (List.mem_append_left _ he')

namespace HasEntries

/-- The locks of a policy are distinct. -/
theorem distinct (h : m.HasEntries es p) : Lock.Distinct m.lockList :=
  h.madeOf.sound.wellFormed.distinct.perm h.madeOf.locks.symm

/-- An entry is declared by the field that it is resolved to. -/
theorem declareEntry_ok (hok : m.declareEntry p e = .ok p') :
    Identifier.Legal e.name ∧
      ∃ f, e.resolve m.lockList m.build.instances = .ok f ∧ p.declare f = .ok p' := by
  obtain ⟨u, hname, hok⟩ := bind_eq_ok.1 hok
  obtain ⟨f, hresolve, hok⟩ := bind_eq_ok.1 hok
  exact ⟨checkIdentifier_ok_iff.1 hname, f, hresolve, hok⟩

/-- An entry that is declared is one more that the policy has. -/
theorem declareEntry (h : m.HasEntries es p) (hok : m.declareEntry p e = .ok p') :
    m.HasEntries (es ++ [e]) p' := by
  obtain ⟨-, f, hresolve, hdeclare⟩ := declareEntry_ok hok
  have hmade := h.madeOf.declare hdeclare
  have hfields : p'.fields = p.fields ++ [f] := hmade.fields
  refine ⟨hfields ▸ hmade, hfields ▸ ?_⟩
  exact List.rel_append h.describes (.cons (describes_of_resolve hresolve) .nil)

/-- The next entry is declared exactly when it breaks no rule together with those before it. -/
theorem declareEntry_ok_iff (h : m.HasEntries es p) (hes : m.LawfulEntries es) :
    (∃ p', m.declareEntry p e = .ok p') ↔ m.LawfulEntries (es ++ [e]) := by
  have hmem : e ∈ es ++ [e] := List.mem_append_right _ List.mem_cons_self
  constructor
  · rintro ⟨p', hok⟩
    obtain ⟨hname, f, hresolve, hdeclare⟩ := declareEntry_ok hok
    obtain ⟨htiered, hagreed, hdeclared⟩ := resolve_ok_iff.1 ⟨f, hresolve⟩
    have hafter := h.declareEntry hok
    have hfits := hafter.madeOf.sound.wellFormed.perm hafter.madeOf.locks.symm (.refl _)
    obtain ⟨hpermitted, hnames, hkinds⟩ := (wellFormed_iff h.distinct hafter.describes).1 hfits
    refine ⟨fun e' he' => ?_, hnames, hkinds⟩
    -- the entries before were in order already
    rcases List.mem_append.1 he' with hold | hlast
    · exact hes.each e' hold
    · obtain rfl := List.mem_singleton.1 hlast
      exact ⟨hname, htiered, hagreed, hdeclared, hpermitted _ hmem⟩
  · intro hall
    have hlawful := hall.each e hmem
    obtain ⟨f, hresolve⟩ := resolve_ok_iff.2 ⟨hlawful.tiered, hlawful.agreed, hlawful.declared⟩
    have hdescribes : List.Forall₂ m.Describes (es ++ [e]) (p.fields ++ [f]) :=
      List.rel_append h.describes (.cons (describes_of_resolve hresolve) .nil)
    have hfits := (wellFormed_iff h.distinct hdescribes).2
      ⟨fun e' he' => (hall.each e' he').permitted, hall.names, hall.kinds⟩
    obtain ⟨p', hdeclare⟩ := h.madeOf.declare_iff.2 hfits
    exact ⟨p', bind_eq_ok.2 ⟨(), checkIdentifier_ok_iff.2 hlawful.identifier,
      bind_eq_ok.2 ⟨f, hresolve, hdeclare⟩⟩⟩

end HasEntries

/-! ## The manifest as a whole -/

/-- No constant is generated twice when none is found that has been generated before. -/
theorem collision?_eq_none {seen ls : List Lock} (h : (seen.map (·.constantName)).Nodup) :
    collision? seen ls = none ↔ ((seen ++ ls).map (·.constantName)).Nodup := by
  induction ls generalizing seen with
  | nil => simpa [collision?] using h
  | cons l ls ih =>
    unfold collision?
    cases hfind : seen.find? (·.constantName = l.constantName) with
    | some l' =>
      have hsame : l'.constantName = l.constantName := by simpa using List.find?_some hfind
      refine ⟨nofun, fun hall => ?_⟩
      have hstart : ((seen ++ [l]).map (·.constantName)).Nodup := by
        rw [List.append_cons seen l ls, List.map_append] at hall
        exact (List.nodup_append.1 hall).1
      exact absurd hsame ((nodup_map_concat.1 hstart).2 l' (List.mem_of_find?_eq_some hfind))
    | none =>
      have hnew : ∀ m ∈ seen, m.constantName ≠ l.constantName := fun m hm => by
        simpa using List.find?_eq_none.1 hfind m hm
      rw [List.append_cons seen l ls]
      exact ih (nodup_map_concat.2 ⟨h, hnew⟩)

/-- The locks of a manifest are accepted if a policy takes them, no two share a constant, and the
structures have legal names. -/
theorem lockPolicy_ok_iff : m.lockPolicy = .ok p ↔ Policy.ofLocks m.lockList = .ok p ∧
    (m.lockList.map (·.constantName)).Nodup ∧ ∀ t, Identifier.Legal (m.build.structName t) := by
  have hcollision : collision? [] m.lockList = none ↔ (m.lockList.map (·.constantName)).Nodup :=
    collision?_eq_none List.nodup_nil
  unfold lockPolicy
  rw [bind_eq_ok, ← hcollision]
  cases collision? [] m.lockList with
  | some c => simp
  | none =>
    simp only [bind_eq_ok, checkIdentifier_ok_iff]
    constructor
    · rintro ⟨p', hlocks, _, hglobal, _, hinstance, _, hthread, hok⟩
      obtain rfl := Except.ok.inj hok
      exact ⟨hlocks, trivial, fun t => by cases t <;> assumption⟩
    · rintro ⟨hlocks, -, hnames⟩
      exact ⟨p, hlocks, (), hnames .global, (), hnames .perInstance, (), hnames .perThread, rfl⟩

/-- Locks are distinct if the entries for them are. -/
theorem distinct_lockList_iff : Lock.Distinct m.lockList ↔
    (m.locks.map (·.name)).Nodup ∧ (m.locks.map (·.rank)).Nodup := by
  have hmap : ∀ {α : Type} (g : Lock → α), m.lockList.map g = m.locks.map fun l => g ⟨l.name, l.rank⟩ :=
    fun g => List.map_map
  constructor
  · rintro ⟨hnames, hranks⟩
    rw [hmap] at hnames hranks
    exact ⟨hnames, hranks⟩
  · rintro ⟨hnames, hranks⟩
    refine ⟨?_, ?_⟩ <;> rw [hmap] <;> assumption

/-- A policy of locks has no entries yet. -/
theorem hasEntries_of_locks (h : Policy.ofLocks m.lockList = .ok p) : m.HasEntries [] p := by
  have hmade := Policy.ofLocks_parts h
  rw [← hmade.fields] at hmade
  exact ⟨hmade, (Policy.ofLocks_parts h).fields ▸ .nil⟩

/-- The policy of a manifest has all its entries. -/
theorem policy_parts (h : m.policy = .ok p) : m.HasEntries m.fields p := by
  obtain ⟨p₀, hlocks, hfields⟩ := bind_eq_ok.1 h
  exact foldlM_kept m.HasEntries HasEntries.declareEntry
    (hasEntries_of_locks (lockPolicy_ok_iff.1 hlocks).1) hfields

/-- The entries are accepted by the policy of the locks exactly when they obey the rules. -/
theorem entries_ok_iff (h : Policy.ofLocks m.lockList = .ok p) :
    (∃ p', m.fields.foldlM m.declareEntry p = .ok p') ↔ m.LawfulEntries m.fields :=
  foldlM_ok_iff m.HasEntries HasEntries.declareEntry LawfulEntries.start
    HasEntries.declareEntry_ok_iff (hasEntries_of_locks h) .empty

/-- A manifest makes a policy exactly when it is valid. -/
theorem policy_ok_iff : (∃ p, m.policy = .ok p) ↔ m.Valid := by
  constructor
  · rintro ⟨p, hok⟩
    obtain ⟨p₀, hlockPolicy, hfields⟩ := bind_eq_ok.1 hok
    obtain ⟨hlocks, hconstants, hstructs⟩ := lockPolicy_ok_iff.1 hlockPolicy
    obtain ⟨hnames, hranks⟩ := distinct_lockList_iff.1 (Policy.ofLocks_ok_iff.1 ⟨p₀, hlocks⟩)
    exact ⟨hnames, hranks, hconstants, hstructs, (entries_ok_iff hlocks).1 ⟨p, hfields⟩⟩
  · intro h
    obtain ⟨p₀, hlocks⟩ :=
      Policy.ofLocks_ok_iff.2 (distinct_lockList_iff.2 ⟨h.lockNames, h.lockRanks⟩)
    obtain ⟨p, hfields⟩ := (entries_ok_iff hlocks).2 h.entries
    have hlockPolicy := lockPolicy_ok_iff.2 ⟨hlocks, h.lockConstants, h.structNames⟩
    exact ⟨p, bind_eq_ok.2 ⟨p₀, hlockPolicy, hfields⟩⟩

/-- The entries of a manifest that makes a policy obey the rules, and each describes its field. -/
theorem lawful_describes (h : m.policy = .ok p) :
    List.Forall₂ (fun e f => m.LawfulEntry e ∧ m.Describes e f) m.fields p.fields :=
  (List.forall₂_and_left _ _).2
    ⟨(policy_ok_iff.1 ⟨p, h⟩).entries.each, (policy_parts h).describes⟩

/-- A manifest makes a policy exactly when it is valid. The policy has one field for each entry, in
the order of the manifest, and the manifest's locks by rank. -/
theorem policy_iff_valid (m : Manifest) :
    ((∃ p, m.policy = .ok p) ↔ m.Valid) ∧
      ∀ p, m.policy = .ok p → List.Forall₂ m.Describes m.fields p.fields ∧
        p.locks.Perm m.lockList ∧ p.locks.Pairwise (·.rank < ·.rank) := by
  refine ⟨policy_ok_iff, fun p hok => ?_⟩
  have hparts := policy_parts hok
  exact ⟨hparts.describes, hparts.madeOf.locks, hparts.madeOf.sound.ranks⟩

/-- A manifest that lists the higher lock first. One entry names its tier, the other only says where it
is needed. -/
def highestFirst : Manifest where
  locks := [⟨"sh_path", 30⟩, ⟨"registry", 10⟩]
  fields := [
    { name := "sh_path", tier? := some .global, type := "String", lock? := some "sh_path",
      readMostly := true, exported := true },
    { name := "stack_depth", perThread? := some true, type := "usize", persistent := true }]

/-- The policy of the manifest has the fields in its order, and the locks in the order of their ranks. -/
theorem highestFirst_described : highestFirst.Valid ∧ ∃ p, highestFirst.policy = .ok p ∧
    List.Forall₂ highestFirst.Describes highestFirst.fields p.fields ∧
      p.locks.Perm highestFirst.lockList ∧ p.locks.Pairwise (·.rank < ·.rank) :=
  ⟨(policy_iff_valid highestFirst).1.1 ⟨_, rfl⟩, _, rfl, (policy_iff_valid highestFirst).2 _ rfl⟩

end Manifest

end TieredState
