import Mathlib.Data.List.Nodup
import TieredState.Policy.Basic

/-!
# The rules of a policy

A policy is built by declarations, each of which is accepted or refused. It keeps what was accepted
in four places: the locks by rank, the fields in order, an index of the fields' names, and for each
lock the fields that it guards. A field comes by its lock in two ways, with its declaration or later.

* `Policy.Sound` — the rules that hold of a policy, and how its parts fit together.
* `Policy.Records` — what a policy has of the declarations that were accepted.
* `Policy.kept_of_declarations` — what each declaration keeps is so of all of them at the end.
* `build_sound` — both hold of whatever declarations are put to an empty policy.
-/

namespace TieredState

/-- What is put to a policy: a lock, a field, or the protection of a field declared before. -/
inductive Declaration where
  | lock (l : Lock)
  | field (f : Field)
  | guard (name : String) (protection : Protection)
  deriving DecidableEq, Repr

/-- The field obeys the rules that concern it alone, in a policy with the locks. -/
structure Field.Lawful (locks : List Lock) (f : Field) : Prop where
  locked : ∀ l, f.lock? = some l → f.tier = .global ∧ f.constant = false ∧ l ∈ locks
  exported : f.exported = true → f.tier = .global
  persistent : f.persistent = true → f.tier = .perThread
  constant : f.constant = true → f.tier = .global ∧ f.lock? = none

/-- Values stay apart with one more entry when no entry before it has its value. -/
theorem nodup_map_concat {α β : Type} {value : α → β} {xs : List α} {x : α} :
    ((xs ++ [x]).map value).Nodup ↔ (xs.map value).Nodup ∧ ∀ y ∈ xs, value y ≠ value x := by
  rw [List.map_append, List.map_singleton, ← List.concat_eq_append, List.nodup_concat, and_comm]
  simp

/-- More locks do no harm. -/
theorem Field.Lawful.mono {locks locks' : List Lock} {f : Field} (h : f.Lawful locks)
    (hsub : locks ⊆ locks') : f.Lawful locks' where
  locked l hl := (h.locked l hl).imp_right (And.imp_right (@hsub l))
  exported := h.exported
  persistent := h.persistent
  constant := h.constant

/-- The field as it would be without its lock. -/
def Field.unlocked (f : Field) : Field := { f with protection := .unlocked }

/-- Shared are the fields of the global tier, and no others. -/
theorem Tier.isShared_iff {t : Tier} : t.isShared = true ↔ t = .global := by
  cases t <;> simp [isShared]

namespace Policy

/-- What comes of a declaration. -/
def accept (p : Policy) : Declaration → Except DeclarationError Policy
  | .lock l => p.declareLock l
  | .field f => p.declare f
  | .guard name protection => p.bind name protection

/-- The policy after a declaration. One that is refused changes nothing. -/
def after (p : Policy) (d : Declaration) : Policy :=
  match p.accept d with
  | .ok p' => p'
  | .error _ => p

/-- The policy that declarations build, whichever of them are refused. -/
def build (ds : List Declaration) : Policy := ds.foldl after {}

/-- The declarations that are accepted, put to the policy one after another. -/
def accepted (p : Policy) : List Declaration → List Declaration
  | [] => []
  | d :: ds =>
    match p.accept d with
    | .ok p' => d :: p'.accepted ds
    | .error _ => p.accepted ds

/-- The rules of a policy. -/
structure Sound (p : Policy) : Prop where
  ranks : p.locks.Pairwise (·.rank < ·.rank)
  lockNames : (p.locks.map (·.name)).Nodup
  fieldNames : (p.fields.map (·.name)).Nodup
  index : ∀ name k, p.index.get? name = some k ↔ ∃ f, p.fields[k]? = some f ∧ f.name = name
  guarded : ∀ lock name, name ∈ p.guardedFields lock ↔
    ∃ f ∈ p.fields, f.name = name ∧ ∃ l, f.lock? = some l ∧ l.name = lock
  guardedOnce : ∀ lock, (p.guardedFields lock).Nodup
  lawful : ∀ f ∈ p.fields, f.Lawful p.locks
  kinds : ∀ f ∈ p.fields, ∀ g ∈ p.fields, ∀ l m, f.lock? = some l → g.lock? = some m →
    l.name = m.name → f.protection.kind = g.protection.kind

variable {p p' : Policy} {f : Field} {l : Lock} {name : String} {k : Nat} {protection : Protection}

/-! ## What is accepted -/

/-- A lock that is taken has a new name and a new rank. -/
theorem declareLock_ok (h : p.declareLock l = .ok p') :
    (∀ m ∈ p.locks, m.name ≠ l.name ∧ m.rank ≠ l.rank) ∧
      p' = { p with locks := insertByRank l p.locks } := by
  unfold declareLock at h
  split at h
  · cases h
  · next hunused =>
    refine ⟨fun m hm => ?_, (Except.ok.inj h).symm⟩
    simp only [List.any_eq_true, Bool.or_eq_true, decide_eq_true_eq, not_exists, not_and,
      not_or] at hunused
    exact hunused m hm

/-- A field whose flags pass their check has them where they belong. -/
theorem checkFlags_ok {u : Unit} (h : checkFlags f = .ok u) :
    (f.constant = true → f.tier = .global ∧ f.lock? = none) ∧
      (f.exported = true → f.tier = .global) ∧ (f.persistent = true → f.tier = .perThread) := by
  unfold checkFlags at h
  split at h
  · cases h
  · next hconstant =>
    split at h
    · cases h
    · next hexported =>
      split at h
      · cases h
      · next hpersistent =>
        refine ⟨fun hc => ?_, fun he => ?_, fun hp => ?_⟩
        · simpa [hc, Option.not_isSome_iff_eq_none] using hconstant
        · simpa [he, Tier.isShared_iff] using hexported
        · simpa [hp] using hpersistent

/-- What a lock is checked for before it guards one more field, which is then guarded as the others
are. -/
theorem checkGuard_ok {tier : Tier} {kind : Protection.Kind} {u : Unit}
    (h : p.checkGuard name tier l kind = .ok u) : tier = .global ∧ l ∈ p.locks ∧
      ∀ n ∈ p.guardedFields l.name, (p.protection? n).map (·.kind) = some kind := by
  unfold checkGuard at h
  split at h
  · cases h
  · next hshared =>
    split at h
    · cases h
    · next hlock =>
      split at h
      · cases h
      · next hfind =>
        refine ⟨Tier.isShared_iff.1 (by simpa using hshared), not_not.1 hlock, fun n hn => ?_⟩
        simpa using List.find?_eq_none.1 hfind n hn

/-- A field is declared with the lock that it has, if it has one. -/
theorem declare_ok (h : p.declare f = .ok p') :
    p.index.get? f.name = none ∧ (∃ u, checkFlags f = .ok u) ∧
      (f.lock? = none ∧ p' = p.push f ∨
        ∃ l u, f.lock? = some l ∧ p.checkGuard f.name f.tier l f.protection.kind = .ok u ∧
          p' = (p.join l f.name).push f) := by
  unfold declare at h
  -- a declaration asks for the name, the flags and the lock, in this order
  split at h
  · cases h
  · next hnew =>
    refine ⟨Option.not_isSome_iff_eq_none.1 hnew, ?_⟩
    cases hflags : checkFlags f with
    | error e =>
      rw [hflags] at h
      cases h
    | ok u =>
      refine ⟨⟨u, rfl⟩, ?_⟩
      rw [hflags] at h
      dsimp only [Bind.bind, Except.bind] at h
      split at h
      · next hnone => exact .inl ⟨hnone, (Except.ok.inj h).symm⟩
      · next l hlock =>
        cases hcheck : p.checkGuard f.name f.tier l f.protection.kind with
        | error e =>
          rw [hcheck] at h
          cases h
        | ok u =>
          rw [hcheck] at h
          exact .inr ⟨l, u, hlock, hcheck, (Except.ok.inj h).symm⟩

/-- A field is given a lock later if it has none. -/
theorem bind_ok (h : p.bind name protection = .ok p') :
    (protection.lock? = none ∧ p' = p) ∨
      ∃ k f l u, p.index.get? name = some k ∧ p.fields[k]? = some f ∧ protection.lock? = some l ∧
        f.lock? = none ∧ f.constant = false ∧ p.checkGuard name f.tier l protection.kind = .ok u ∧
        p' = { p.join l name with fields := p.fields.set k { f with protection } } := by
  unfold bind at h
  split at h
  · cases h
  · next k f hfound =>
    obtain ⟨k', hk, hfound⟩ := Option.bind_eq_some_iff.1 hfound
    obtain ⟨f', hf, heq⟩ := Option.map_eq_some_iff.1 hfound
    obtain ⟨rfl, rfl⟩ := Prod.mk.inj heq
    split at h
    · next hnone => exact .inl ⟨hnone, (Except.ok.inj h).symm⟩
    · next l hl =>
      split at h
      · cases h
      · next hunlocked =>
        split at h
        · cases h
        · next hconstant =>
          cases hcheck : p.checkGuard name f'.tier l protection.kind with
          | error e =>
            rw [hcheck] at h
            cases h
          | ok u =>
            rw [hcheck] at h
            exact .inr ⟨k', f', l, u, hk, hf, hl, hunlocked, Bool.eq_false_iff.2 hconstant, hcheck,
              (Except.ok.inj h).symm⟩

/-! ## Locks by rank -/

/-- The locks are those from before and the new one. -/
theorem insertByRank_perm (l : Lock) (ls : List Lock) : (insertByRank l ls).Perm (l :: ls) := by
  induction ls with
  | nil => exact .refl _
  | cons m ms ih =>
    unfold insertByRank
    split
    · exact (ih.cons m).trans (.swap l m ms)
    · exact .refl _

/-- A lock with a rank of its own goes to its place. -/
theorem insertByRank_pairwise {ls : List Lock} (h : ls.Pairwise (·.rank < ·.rank))
    (hnew : ∀ m ∈ ls, m.rank ≠ l.rank) : (insertByRank l ls).Pairwise (·.rank < ·.rank) := by
  induction ls with
  | nil => exact List.pairwise_singleton _ _
  | cons m ms ih =>
    obtain ⟨hm, hms⟩ := List.pairwise_cons.1 h
    have hne := hnew m List.mem_cons_self
    unfold insertByRank
    split
    · next hlt =>
      refine List.pairwise_cons.2 ⟨fun x hx => ?_, ih hms fun x hx => hnew x (.tail m hx)⟩
      rcases List.mem_cons.1 ((insertByRank_perm l ms).mem_iff.1 hx) with rfl | hin
      · exact hlt
      · exact hm x hin
    · next hge =>
      refine List.pairwise_cons.2 ⟨fun x hx => ?_, h⟩
      rcases List.mem_cons.1 hx with rfl | hin
      · omega
      · have hlt := hm x hin
        omega

/-! ## The rules are kept -/

/-- A field that joins a lock comes last in the group of this lock. -/
theorem guardedFields_join (p : Policy) (l : Lock) (name lock : String) :
    (p.join l name).guardedFields lock =
      if lock = l.name then p.guardedFields lock ++ [name] else p.guardedFields lock := by
  unfold join guardedFields
  rw [Table.get?_insert]
  split
  · next heq =>
    subst heq
    rfl
  · rfl

/-- A field that is declared with a lock might as well be given it afterwards. -/
theorem push_join (p : Policy) (l : Lock) (f : Field) :
    (p.join l f.name).push f = { (p.push f.unlocked).join l f.name with
      fields := (p.push f.unlocked).fields.set p.fields.length f } := by
  unfold push join
  simp [guardedFields, Field.unlocked]

namespace Sound

/-- The empty policy. -/
theorem empty : Sound {} where
  ranks := .nil
  lockNames := List.nodup_nil
  fieldNames := List.nodup_nil
  index name k := by simp [show (∅ : Table String Nat) = .empty from rfl]
  guarded lock name := by simp [guardedFields, show (∅ : Table String (List String)) = .empty from rfl]
  guardedOnce lock := List.nodup_nil
  lawful f hf := absurd hf List.not_mem_nil
  kinds f hf := absurd hf List.not_mem_nil

/-- Two fields of one name are the same. -/
theorem eq_of_name (h : p.Sound) {g : Field} (hf : f ∈ p.fields) (hg : g ∈ p.fields)
    (hname : f.name = g.name) : f = g :=
  List.inj_on_of_nodup_map h.fieldNames hf hg hname

/-- A field is found by its name. -/
theorem field?_eq_some (h : p.Sound) : p.field? name = some f ↔ f ∈ p.fields ∧ f.name = name := by
  unfold field?
  rw [Option.bind_eq_some_iff]
  constructor
  · rintro ⟨k, hk, hf⟩
    obtain ⟨g, hg, hname⟩ := (h.index name k).1 hk
    obtain rfl := Option.some.inj (hf.symm.trans hg)
    exact ⟨List.mem_of_getElem? hf, hname⟩
  · rintro ⟨hf, hname⟩
    obtain ⟨k, hk⟩ := List.mem_iff_getElem?.1 hf
    exact ⟨k, (h.index name k).2 ⟨f, hk, hname⟩, hk⟩

/-- A name that is not in the index is that of no field. -/
theorem not_mem_of_new (h : p.Sound) (hnew : p.index.get? name = none) (hf : f ∈ p.fields) :
    f.name ≠ name := by
  intro hname
  obtain ⟨k, hk⟩ := List.mem_iff_getElem?.1 hf
  rw [(h.index name k).2 ⟨f, hk, hname⟩] at hnew
  cases hnew

/-- The rules are kept when a lock is declared. -/
theorem declareLock (h : p.Sound) (hok : p.declareLock l = .ok p') : p'.Sound := by
  obtain ⟨hunused, rfl⟩ := declareLock_ok hok
  have hperm := insertByRank_perm l p.locks
  refine ⟨insertByRank_pairwise h.ranks fun m hm => (hunused m hm).2, ?_, h.fieldNames, h.index,
    h.guarded, h.guardedOnce, fun f hf => ?_, h.kinds⟩
  · refine (hperm.map (·.name)).nodup_iff.2 (List.nodup_cons.2 ⟨fun hmem => ?_, h.lockNames⟩)
    obtain ⟨m, hm, hname⟩ := List.mem_map.1 hmem
    exact (hunused m hm).1 hname
  · exact (h.lawful f hf).mono fun m hm => hperm.mem_iff.2 (.tail l hm)

/-- A field without a lock goes behind the others. -/
theorem push (h : p.Sound) (hnew : p.index.get? f.name = none) (hlawful : f.Lawful p.locks)
    (hlock : f.lock? = none) : (p.push f).Sound := by
  have hmem : ∀ {g}, g ∈ p.fields ++ [f] → g ∈ p.fields ∨ g = f := by simp
  refine ⟨h.ranks, h.lockNames, ?_, fun name k => ?_, fun lock name => ?_, h.guardedOnce,
    fun g hg => ?_, fun g hg g' hg' l m hl hm hname => ?_⟩
  · show ((p.fields ++ [f]).map (·.name)).Nodup
    exact nodup_map_concat.2 ⟨h.fieldNames, fun g hg => h.not_mem_of_new hnew hg⟩
  · show (p.index.insert f.name p.fields.length).get? name = some k ↔ ∃ g, (p.fields ++ [f])[k]? = some g ∧ _
    rw [Table.get?_insert]
    split
    · next heq =>
      -- a new name has the position behind all others
      subst heq
      rw [Option.some_inj]
      constructor
      · rintro rfl
        exact ⟨f, by simp, rfl⟩
      · rintro ⟨g, hg, hname⟩
        rcases Nat.lt_or_ge k p.fields.length with hlt | hge
        · rw [List.getElem?_append_left hlt] at hg
          exact absurd hname (h.not_mem_of_new hnew (List.mem_of_getElem? hg))
        · have hbound := (List.getElem?_eq_some_iff.1 hg).1
          rw [List.length_append, List.length_singleton] at hbound
          omega
    · next hne =>
      rw [h.index]
      constructor
      · rintro ⟨g, hg, hname⟩
        exact ⟨g, by rw [List.getElem?_append_left (List.getElem?_eq_some_iff.1 hg).1, hg], hname⟩
      · rintro ⟨g, hg, hname⟩
        rcases Nat.lt_or_ge k p.fields.length with hlt | hge
        · rw [List.getElem?_append_left hlt] at hg
          exact ⟨g, hg, hname⟩
        · rw [List.getElem?_append_right hge] at hg
          have hlast := List.mem_of_getElem? hg
          rw [List.mem_singleton] at hlast
          exact absurd (hlast ▸ hname).symm hne
  · show name ∈ p.guardedFields lock ↔ ∃ g ∈ p.fields ++ [f], _
    rw [h.guarded]
    constructor
    · rintro ⟨g, hg, hrest⟩
      exact ⟨g, List.mem_append_left _ hg, hrest⟩
    · rintro ⟨g, hg, hname, l, hl, hrest⟩
      rcases hmem hg with hold | rfl
      · exact ⟨g, hold, hname, l, hl, hrest⟩
      · rw [hlock] at hl
        cases hl
  · rcases hmem hg with hold | rfl
    · exact h.lawful g hold
    · exact hlawful
  · rcases hmem hg with hold | rfl
    · rcases hmem hg' with hold' | rfl
      · exact h.kinds g hold g' hold' l m hl hm hname
      · rw [hlock] at hm
        cases hm
    · rw [hlock] at hl
      cases hl

/-- A field without a lock is given one. -/
theorem attach (h : p.Sound) (hk : p.index.get? name = some k) (hf : p.fields[k]? = some f)
    (hl : protection.lock? = some l) (hunlocked : f.lock? = none) (hconstant : f.constant = false)
    (htier : f.tier = .global) (hlock : l ∈ p.locks)
    (hkinds : ∀ g ∈ p.fields, ∀ m, g.lock? = some m → m.name = l.name →
      g.protection.kind = protection.kind) :
    Sound { p.join l name with fields := p.fields.set k { f with protection } } := by
  have hmemf := List.mem_of_getElem? hf
  have hname : f.name = name := by
    obtain ⟨g, hg, hname⟩ := (h.index name k).1 hk
    rwa [Option.some.inj (hg.symm.trans hf)] at hname
  -- the field stays where it is, and every other field is as it was
  have hget : ∀ j, (p.fields.set k { f with protection })[j]? =
      if j = k then some { f with protection } else p.fields[j]? := by
    intro j
    have hbound := (List.getElem?_eq_some_iff.1 hf).1
    rw [List.getElem?_set, if_pos hbound]
    split
    · next heq => rw [if_pos heq.symm]
    · next hne => rw [if_neg (Ne.symm hne)]
  have hnew : { f with protection } ∈ p.fields.set k { f with protection } :=
    List.mem_of_getElem? ((hget k).trans (if_pos rfl))
  have hmem : ∀ {g}, g ∈ p.fields.set k { f with protection } →
      g ∈ p.fields ∨ g = { f with protection } := List.mem_or_eq_of_mem_set
  have hold : ∀ g ∈ p.fields, ∀ m, g.lock? = some m → g ∈ p.fields.set k { f with protection } := by
    intro g hg m hm
    obtain ⟨j, hj⟩ := List.mem_iff_getElem?.1 hg
    have hne : j ≠ k := by
      rintro rfl
      rw [Option.some.inj (hj.symm.trans hf), hunlocked] at hm
      cases hm
    exact List.mem_of_getElem? ((hget j).trans ((if_neg hne).trans hj))
  refine ⟨h.ranks, h.lockNames, ?_, fun n j => ?_, fun lock n => ?_, fun lock => ?_,
    fun g hg => ?_, fun g hg g' hg' m m' hm hm' heq => ?_⟩
  · have hnames : (p.fields.set k { f with protection }).map (·.name) = p.fields.map (·.name) := by
      refine List.ext_getElem? fun j => ?_
      rw [List.getElem?_map, List.getElem?_map, hget]
      split
      · next heq =>
        rw [heq, hf]
        rfl
      · rfl
    exact hnames ▸ h.fieldNames
  · show p.index.get? n = some j ↔ ∃ g, (p.fields.set k { f with protection })[j]? = some g ∧ _
    rw [h.index, hget]
    split
    · next heq =>
      rw [heq, hf]
      simp
    · rfl
  · show n ∈ (p.join l name).guardedFields lock ↔ ∃ g ∈ p.fields.set k { f with protection }, _
    rw [guardedFields_join]
    constructor
    · intro hin
      have hcases : n ∈ p.guardedFields lock ∨ lock = l.name ∧ n = name := by
        split at hin
        · next heq => exact (List.mem_append.1 hin).imp_right fun hlast => ⟨heq, List.mem_singleton.1 hlast⟩
        · exact .inl hin
      rcases hcases with hin | ⟨rfl, rfl⟩
      · obtain ⟨g, hg, hgname, m, hm, hmname⟩ := (h.guarded lock n).1 hin
        exact ⟨g, hold g hg m hm, hgname, m, hm, hmname⟩
      · exact ⟨_, hnew, hname, l, hl, rfl⟩
    · rintro ⟨g, hg, hgname, m, hm, hmname⟩
      rcases hmem hg with hin | rfl
      · have hguarded := (h.guarded lock n).2 ⟨g, hin, hgname, m, hm, hmname⟩
        split
        · exact List.mem_append_left _ hguarded
        · exact hguarded
      · obtain rfl : m = l := Option.some.inj (hm.symm.trans hl)
        rw [if_pos hmname.symm, ← hgname, ← hname]
        exact List.mem_append_right _ List.mem_cons_self
  · show ((p.join l name).guardedFields lock).Nodup
    rw [guardedFields_join]
    split
    · refine List.perm_append_comm.nodup_iff.2 (List.nodup_cons.2 ⟨fun hin => ?_, h.guardedOnce lock⟩)
      -- the field that has the name has no lock yet
      obtain ⟨g, hg, hgname, m, hm, -⟩ := (h.guarded lock name).1 hin
      rw [h.eq_of_name hg hmemf (hgname.trans hname.symm), hunlocked] at hm
      cases hm
    · exact h.guardedOnce lock
  · rcases hmem hg with hin | rfl
    · exact h.lawful g hin
    · have hlawful := h.lawful f hmemf
      refine ⟨fun m hm => ?_, hlawful.exported, hlawful.persistent, fun hc => ?_⟩
      · obtain rfl : m = l := Option.some.inj (hm.symm.trans hl)
        exact ⟨htier, hconstant, hlock⟩
      · rw [show f.constant = true from hc] at hconstant
        cases hconstant
  · rcases hmem hg with hin | rfl
    · rcases hmem hg' with hin' | rfl
      · exact h.kinds g hin g' hin' m m' hm hm' heq
      · obtain rfl : m' = l := Option.some.inj (hm'.symm.trans hl)
        exact hkinds g hin m hm heq
    · obtain rfl : m = l := Option.some.inj (hm.symm.trans hl)
      rcases hmem hg' with hin' | rfl
      · exact (hkinds g' hin' m' hm' heq.symm).symm
      · rfl

/-- What is checked for the fields that a lock guards is so for all fields that refer to it. -/
theorem kinds_of_check (h : p.Sound) {kind : Protection.Kind}
    (hcheck : ∀ n ∈ p.guardedFields l.name, (p.protection? n).map (·.kind) = some kind) :
    ∀ g ∈ p.fields, ∀ m, g.lock? = some m → m.name = l.name → g.protection.kind = kind := by
  intro g hg m hm hname
  have hguarded := (h.guarded l.name g.name).2 ⟨g, hg, rfl, m, hm, hname⟩
  have hkind := hcheck g.name hguarded
  unfold protection? at hkind
  rw [h.field?_eq_some.2 ⟨hg, rfl⟩] at hkind
  exact Option.some.inj hkind

/-- The rules are kept when a field is given its lock. -/
theorem bind (h : p.Sound) (hok : p.bind name protection = .ok p') : p'.Sound := by
  rcases bind_ok hok with ⟨-, rfl⟩ | ⟨k, f, l, u, hk, hf, hl, hunlocked, hconstant, hcheck, rfl⟩
  · exact h
  · obtain ⟨htier, hlock, hkinds⟩ := checkGuard_ok hcheck
    exact h.attach hk hf hl hunlocked hconstant htier hlock (h.kinds_of_check hkinds)

/-- The rules are kept when a field is declared. -/
theorem declare (h : p.Sound) (hok : p.declare f = .ok p') : p'.Sound := by
  obtain ⟨hnew, ⟨_, hflags⟩, hcases⟩ := declare_ok hok
  obtain ⟨hconstant, hexported, hpersistent⟩ := checkFlags_ok hflags
  rcases hcases with ⟨hunlocked, rfl⟩ | ⟨l, u, hl, hcheck, rfl⟩
  · refine h.push hnew ⟨fun l hl => ?_, hexported, hpersistent, hconstant⟩ hunlocked
    rw [hunlocked] at hl
    cases hl
  · obtain ⟨htier, hlock, hkinds⟩ := checkGuard_ok hcheck
    have hnot : f.constant = false := by
      refine Bool.eq_false_iff.2 fun hc => ?_
      rw [(hconstant hc).2] at hl
      cases hl
    -- first the field is declared without its lock, and then the lock is attached to it
    have hpushed : (p.push f.unlocked).Sound := by
      refine h.push hnew ⟨fun l hl => (by cases hl), hexported, hpersistent, fun hc => ?_⟩ rfl
      exact ⟨(hconstant hc).1, rfl⟩
    have hfield : (p.push f.unlocked).fields[p.fields.length]? = some f.unlocked := by
      simp [Policy.push]
    have hindex : (p.push f.unlocked).index.get? f.name = some p.fields.length :=
      (Table.get?_insert _ _ _ _).trans (if_pos rfl)
    have hothers : ∀ g ∈ (p.push f.unlocked).fields, ∀ m, g.lock? = some m → m.name = l.name →
        g.protection.kind = f.protection.kind := by
      intro g hg m hm hname
      rcases List.mem_append.1 hg with hold | hlast
      · exact h.kinds_of_check hkinds g hold m hm hname
      · rw [List.mem_singleton.1 hlast] at hm
        cases hm
    have hprotection : f.protection.lock? = some l := hl
    have hattached := hpushed.attach hindex hfield hprotection rfl hnot htier hlock hothers
    rw [push_join]
    exact hattached

/-- What is exported is global, so the exported fields are those of the global tier that are marked. -/
theorem exports_eq (h : p.Sound) : p.exports = (p.tierFields .global).filter (·.exported) := by
  unfold exports tierFields
  rw [List.filter_filter]
  refine List.filter_congr fun f hf => ?_
  by_cases hexported : f.exported = true
  · simp [hexported, (h.lawful f hf).exported hexported]
  · simp [hexported]

/-- Every declaration keeps the rules. -/
theorem accept (h : p.Sound) {d : Declaration} (hok : p.accept d = .ok p') : p'.Sound := by
  cases d with
  | lock l => exact h.declareLock hok
  | field f => exact h.declare hok
  | guard name protection => exact h.bind hok

end Sound

/-- The field that the declaration adds. -/
def fieldOf? : Declaration → Option Field
  | .field f => some f
  | _ => none

/-- The lock that the declaration adds. -/
def lockOf? : Declaration → Option Lock
  | .lock l => some l
  | _ => none

/-- The protection that the declaration gives to the field with the name. -/
def guardOf? (name : String) : Declaration → Option Protection
  | .guard n protection => if n = name ∧ protection.lock?.isSome then some protection else none
  | _ => none

/-- A field as it is declared, with the protection that it is given later, if it is given one. -/
def protectedBy (log : List Declaration) (f : Field) : Field :=
  { f with protection := (log.findSome? (guardOf? f.name)).getD f.protection }

/-- The policy has the locks and the fields of the declarations `log`. A field is as it was declared,
but for the protection that it was given later. -/
structure Records (p : Policy) (log : List Declaration) : Prop where
  locks : p.locks.Perm (log.filterMap lockOf?)
  fields : p.fields = (log.filterMap fieldOf?).map (protectedBy log)
  guards : ∀ name protection, log.findSome? (guardOf? name) = some protection →
    ∃ f ∈ p.fields, f.name = name

/-! ## What was accepted -/

/-- A declaration that gives the field no protection leaves it as it is. -/
theorem protectedBy_append {log : List Declaration} {d : Declaration}
    (hnone : guardOf? f.name d = none) : protectedBy (log ++ [d]) f = protectedBy log f := by
  unfold protectedBy
  rw [List.findSome?_append, List.findSome?_singleton, hnone, Option.or_none]

/-- A field that no guard has been declared for is protected as it was declared. -/
theorem protectedBy_of_none {log : List Declaration} (hnone : log.findSome? (guardOf? f.name) = none) :
    protectedBy log f = f := by
  unfold protectedBy
  rw [hnone]
  rfl

/-- A field that is given its first protection. -/
theorem protectedBy_guard {log : List Declaration} (hnone : log.findSome? (guardOf? f.name) = none)
    (hl : protection.lock? = some l) :
    protectedBy (log ++ [.guard f.name protection]) f = { f with protection } := by
  unfold protectedBy
  rw [List.findSome?_append, hnone, List.findSome?_singleton]
  simp [guardOf?, hl]

/-- A protection given to one field is none for another. -/
theorem guardOf?_of_ne {n : String} (hne : name ≠ n) : guardOf? n (.guard name protection) = none :=
  if_neg fun hand => hne hand.1

/-- A protection without a lock is none. -/
theorem guardOf?_unlocked {n : String} (hnone : protection.lock? = none) :
    guardOf? n (.guard name protection) = none :=
  if_neg fun hand => by simp [hnone] at hand

/-- What is given is a lock. -/
theorem isSome_lock_of_guards {log : List Declaration}
    (h : log.findSome? (guardOf? name) = some protection) : protection.lock?.isSome = true := by
  obtain ⟨d, -, hd⟩ := List.exists_of_findSome?_eq_some h
  unfold guardOf? at hd
  split at hd
  · next n given =>
    obtain ⟨⟨-, hsome⟩, heq⟩ := Option.ite_none_right_eq_some.1 hd
    exact Option.some.inj heq ▸ hsome
  · cases hd

/-- A field without a lock has not been given one. -/
theorem not_guarded {log : List Declaration} (h : (protectedBy log f).lock? = none) :
    log.findSome? (guardOf? f.name) = none := by
  refine Option.eq_none_iff_forall_ne_some.2 fun given hfind => ?_
  have hsome := isSome_lock_of_guards hfind
  have hgiven : (protectedBy log f).protection = given := by
    unfold protectedBy
    rw [hfind]
    rfl
  rw [← hgiven, show (protectedBy log f).protection.lock? = none from h] at hsome
  cases hsome

namespace Records

variable {log : List Declaration}

theorem empty : Records {} [] := ⟨.nil, rfl, nofun⟩

/-- A declaration that adds a lock or nothing at all. -/
theorem of_fields (h : p.Records log) {d : Declaration} (hfields : p'.fields = p.fields)
    (hlocks : p'.locks.Perm ((log ++ [d]).filterMap lockOf?)) (hfield : fieldOf? d = none)
    (hguard : ∀ name, guardOf? name d = none) : p'.Records (log ++ [d]) where
  locks := hlocks
  fields := by
    rw [hfields, h.fields, List.filterMap_append, List.filterMap_cons_none hfield, List.filterMap_nil,
      List.append_nil]
    exact List.map_congr_left fun f _ => (protectedBy_append (hguard f.name)).symm
  guards name protection hfind := by
    rw [List.findSome?_append, List.findSome?_singleton, hguard, Option.or_none] at hfind
    exact hfields ▸ h.guards name protection hfind

/-- A lock that is declared is recorded. -/
theorem declareLock (h : p.Records log) (hok : p.declareLock l = .ok p') :
    p'.Records (log ++ [.lock l]) := by
  obtain ⟨-, rfl⟩ := declareLock_ok hok
  refine h.of_fields rfl ?_ rfl fun _ => rfl
  rw [List.filterMap_append]
  exact (insertByRank_perm l p.locks).trans
    ((h.locks.cons l).trans (List.perm_append_singleton l _).symm)

/-- A field that is declared is recorded. -/
theorem declare (h : p.Records log) (hs : p.Sound) (hok : p.declare f = .ok p') :
    p'.Records (log ++ [.field f]) := by
  obtain ⟨hnew, -, hcases⟩ := declare_ok hok
  have hparts : p'.locks = p.locks ∧ p'.fields = p.fields ++ [f] := by
    rcases hcases with ⟨-, rfl⟩ | ⟨l, u, -, -, rfl⟩ <;> exact ⟨rfl, rfl⟩
  -- a name that is new has not been given a protection before
  have hfirst : log.findSome? (guardOf? f.name) = none := by
    refine Option.eq_none_iff_forall_ne_some.2 fun protection hfind => ?_
    obtain ⟨g, hg, hname⟩ := h.guards f.name protection hfind
    exact hs.not_mem_of_new hnew hg hname
  refine ⟨?_, ?_, fun name protection hfind => ?_⟩
  · rw [hparts.1, List.filterMap_append]
    exact (List.append_nil _).symm ▸ h.locks
  · have hlog : (log ++ [Declaration.field f]).filterMap fieldOf? = log.filterMap fieldOf? ++ [f] := by
      rw [List.filterMap_append]
      rfl
    rw [hparts.2, hlog, List.map_append, List.map_singleton, protectedBy_append rfl,
      protectedBy_of_none hfirst, h.fields]
    congr 1
    exact List.map_congr_left fun g _ => (protectedBy_append rfl).symm
  · rw [List.findSome?_append, List.findSome?_singleton] at hfind
    have hbefore : log.findSome? (guardOf? name) = some protection := by
      rwa [show guardOf? name (.field f) = none from rfl, Option.or_none] at hfind
    obtain ⟨g, hg, hname⟩ := h.guards name protection hbefore
    exact ⟨g, hparts.2 ▸ List.mem_append_left _ hg, hname⟩

/-- The lock that a field is given later is recorded. -/
theorem bind (h : p.Records log) (hs : p.Sound) (hok : p.bind name protection = .ok p') :
    p'.Records (log ++ [.guard name protection]) := by
  have hlocks : p.locks.Perm ((log ++ [Declaration.guard name protection]).filterMap lockOf?) := by
    rw [List.filterMap_append]
    exact (List.append_nil _).symm ▸ h.locks
  rcases bind_ok hok with ⟨hnone, rfl⟩ | ⟨k, f, l, u, hk, hf, hl, hunlocked, -, -, rfl⟩
  · exact h.of_fields rfl hlocks rfl fun n => guardOf?_unlocked hnone
  have hname : f.name = name := by
    obtain ⟨g, hg, hname⟩ := (hs.index name k).1 hk
    rwa [Option.some.inj (hg.symm.trans hf)] at hname
  have hlog : (log ++ [Declaration.guard name protection]).filterMap fieldOf? =
      log.filterMap fieldOf? := by
    rw [List.filterMap_append]
    exact List.append_nil _
  have hdeclared : ∀ j : Nat, p.fields[j]? = ((log.filterMap fieldOf?)[j]?).map (protectedBy log) := by
    intro j
    rw [h.fields, List.getElem?_map]
  refine ⟨hlocks, ?_, fun n given hfind => ?_⟩
  · -- position by position: the one that the name stands for, and the others
    rw [hlog]
    refine List.ext_getElem? fun j => ?_
    show (p.fields.set k { f with protection })[j]? = _
    rw [List.getElem?_set, if_pos (List.getElem?_eq_some_iff.1 hf).1, List.getElem?_map]
    split
    · next heq =>
      subst heq
      obtain ⟨g, hg, rfl⟩ := Option.map_eq_some_iff.1 ((hdeclared k).symm.trans hf)
      have hfirst := not_guarded hunlocked
      obtain rfl : g.name = name := hname
      rw [hg, Option.map_some, protectedBy_guard hfirst hl, protectedBy_of_none hfirst]
    · next hne =>
      rw [hdeclared j]
      cases hg : (log.filterMap fieldOf?)[j]? with
      | none => rfl
      | some g =>
        have hother : name ≠ g.name := by
          intro heq
          have hgj : p.index.get? name = some j :=
            (hs.index name j).2 ⟨protectedBy log g, by rw [hdeclared j, hg, Option.map_some], heq.symm⟩
          exact hne (Option.some.inj (hk.symm.trans hgj))
        rw [Option.map_some, Option.map_some, protectedBy_append (guardOf?_of_ne hother)]
  -- a field is changed in its protection only, so all names are there still
  · have hnames : ∀ g ∈ p.fields, ∃ g' ∈ p.fields.set k { f with protection }, g'.name = g.name := by
      intro g hg
      obtain ⟨j, hj⟩ := List.mem_iff_getElem?.1 hg
      by_cases heq : k = j
      · subst heq
        obtain rfl := Option.some.inj (hj.symm.trans hf)
        exact ⟨_, List.mem_set (List.getElem?_eq_some_iff.1 hf).1 _, rfl⟩
      · exact ⟨g, List.mem_of_getElem? ((List.getElem?_set_ne heq).trans hj), rfl⟩
    rw [List.findSome?_append, List.findSome?_singleton] at hfind
    by_cases heq : name = n
    · subst heq
      exact hname ▸ hnames f (List.mem_of_getElem? hf)
    · rw [guardOf?_of_ne heq, Option.or_none] at hfind
      obtain ⟨g, hg, rfl⟩ := h.guards n given hfind
      exact hnames g hg

/-- Whatever is accepted is recorded. -/
theorem accept (h : p.Records log) (hs : p.Sound) {d : Declaration} (hok : p.accept d = .ok p') :
    p'.Records (log ++ [d]) := by
  cases d with
  | lock l => exact h.declareLock hok
  | field f => exact h.declare hs hok
  | guard name protection => exact h.bind hs hok

end Records

/-- What each accepted declaration keeps of those accepted so far is so of all of them at the end,
whichever others are refused. -/
theorem kept_of_declarations (Kept : Policy → List Declaration → Prop)
    (hkept : ∀ {p log d p'}, Kept p log → p.accept d = .ok p' → Kept p' (log ++ [d]))
    (ds : List Declaration) {log : List Declaration} (h : Kept p log) :
    Kept (ds.foldl after p) (log ++ p.accepted ds) := by
  induction ds generalizing p log with
  | nil => exact (List.append_nil log).symm ▸ h
  | cons d ds ih =>
    unfold accepted
    rw [List.foldl_cons]
    -- a refused declaration is not among the accepted, and leaves the policy as it was
    cases hok : p.accept d with
    | error e =>
      have hafter : p.after d = p := by
        unfold after
        rw [hok]
      rw [hafter]
      exact ih h
    | ok p' =>
      have hafter : p.after d = p' := by
        unfold after
        rw [hok]
      have hall := ih (hkept h hok)
      rw [List.append_assoc] at hall
      rw [hafter]
      exact hall

/-- What declarations make of a policy that is sound, whichever of them are refused. -/
theorem sound_of_declarations (ds : List Declaration) {log : List Declaration} (hs : p.Sound)
    (h : p.Records log) :
    (ds.foldl after p).Sound ∧ (ds.foldl after p).Records (log ++ p.accepted ds) :=
  kept_of_declarations (fun p log => p.Sound ∧ p.Records log)
    (fun h hok => ⟨h.1.accept hok, h.2.accept h.1 hok⟩) ds ⟨hs, h⟩

/-- Whatever locks, fields and protections are declared, in whatever order, and whichever of them are
refused: the policy obeys its rules, and has the locks and the fields that were accepted. -/
theorem build_sound (ds : List Declaration) :
    (build ds).Sound ∧ (build ds).Records (accepted {} ds) :=
  sound_of_declarations ds .empty .empty

end Policy

end TieredState
