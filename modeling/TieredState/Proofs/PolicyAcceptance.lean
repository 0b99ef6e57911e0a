import TieredState.Builtin
import TieredState.Proofs.Chains
import TieredState.Proofs.PolicyRules

/-!
# Which declarations make a policy

A policy is built from locks and then fields, one at a time: each is compared with what is there
already, and the first that does not fit ends it. What is accepted in the end can be told from the
declarations alone and does not depend on their order.

* `Policy.WellFormed` — the locks and fields fit together.
* `Policy.ofDeclarations_ok_iff` — a policy is made of exactly those that do.
* `Policy.acceptance` — the order of the locks and that of the fields make no difference.
-/

namespace TieredState

/-- The locks have names and ranks of their own. -/
structure Lock.Distinct (locks : List Lock) : Prop where
  names : (locks.map (·.name)).Nodup
  ranks : (locks.map (·.rank)).Nodup

namespace Lock.Distinct

variable {locks locks' : List Lock}

theorem empty : Lock.Distinct [] := ⟨List.nodup_nil, List.nodup_nil⟩

/-- It does not matter in which order distinct locks are given. -/
theorem perm (h : Lock.Distinct locks) (hperm : locks'.Perm locks) : Lock.Distinct locks' where
  names := (hperm.map _).nodup_iff.2 h.names
  ranks := (hperm.map _).nodup_iff.2 h.ranks

theorem start {rest : List Lock} (h : Lock.Distinct (locks ++ rest)) : Lock.Distinct locks where
  names := h.names.sublist ((List.sublist_append_left _ _).map _)
  ranks := h.ranks.sublist ((List.sublist_append_left _ _).map _)

/-- One more lock has to have a name and a rank that are not taken. -/
theorem concat_iff {l : Lock} : Lock.Distinct (locks ++ [l]) ↔
    Lock.Distinct locks ∧ ∀ m ∈ locks, m.name ≠ l.name ∧ m.rank ≠ l.rank := by
  constructor
  · intro h
    have hnames := nodup_map_concat.1 h.names
    have hranks := nodup_map_concat.1 h.ranks
    exact ⟨h.start, fun m hm => ⟨hnames.2 m hm, hranks.2 m hm⟩⟩
  · rintro ⟨h, hnew⟩
    exact ⟨nodup_map_concat.2 ⟨h.names, fun m hm => (hnew m hm).1⟩,
      nodup_map_concat.2 ⟨h.ranks, fun m hm => (hnew m hm).2⟩⟩

/-- Two locks of one name are the same. -/
theorem eq_of_name (h : Lock.Distinct locks) {l m : Lock} (hl : l ∈ locks) (hm : m ∈ locks)
    (hname : l.name = m.name) : l = m :=
  List.inj_on_of_nodup_map h.names hl hm hname

end Lock.Distinct

namespace Policy

/-- The locks and the fields fit together: names and ranks are unique, each field obeys the rules that
concern it alone, and the fields of one lock are all guarded the same way. -/
structure WellFormed (locks : List Lock) (fields : List Field) : Prop where
  distinct : Lock.Distinct locks
  names : (fields.map (·.name)).Nodup
  lawful : ∀ f ∈ fields, f.Lawful locks
  kinds : ∀ f ∈ fields, ∀ g ∈ fields, ∀ l, f.lock? = some l → g.lock? = some l →
    f.protection.kind = g.protection.kind

variable {p p' : Policy} {f : Field} {l : Lock} {name : String}
variable {locks locks' : List Lock} {fields fields' : List Field}

namespace WellFormed

/-- Distinct locks fit together without any field. -/
theorem empty (h : Lock.Distinct locks) : WellFormed locks [] :=
  ⟨h, List.nodup_nil, nofun, nofun⟩

/-- The order makes no difference. -/
theorem perm (h : WellFormed locks fields) (hlocks : locks'.Perm locks)
    (hfields : fields'.Perm fields) : WellFormed locks' fields' where
  distinct := h.distinct.perm hlocks
  names := (hfields.map _).nodup_iff.2 h.names
  lawful f hf := (h.lawful f (hfields.subset hf)).mono hlocks.symm.subset
  kinds f hf g hg := h.kinds f (hfields.subset hf) g (hfields.subset hg)

/-- The first of some fields that fit together do so among themselves. -/
theorem start (h : WellFormed locks (fields ++ fields')) : WellFormed locks fields where
  distinct := h.distinct
  names := h.names.sublist ((List.sublist_append_left _ _).map _)
  lawful f hf := h.lawful f (List.mem_append_left _ hf)
  kinds f hf g hg := h.kinds f (List.mem_append_left _ hf) g (List.mem_append_left _ hg)

end WellFormed

/-- What a policy has fits together. -/
theorem Sound.wellFormed (h : p.Sound) : WellFormed p.locks p.fields where
  distinct := ⟨h.lockNames, List.pairwise_map.2 (h.ranks.imp Nat.ne_of_lt)⟩
  names := h.fieldNames
  lawful := h.lawful
  kinds f hf g hg l hl hl' := h.kinds f hf g hg l l hl hl' rfl

/-! ## What passes the checks -/

/-- A lock with a new name and a new rank is taken. -/
theorem declareLock_of_new (hnew : ∀ m ∈ p.locks, m.name ≠ l.name ∧ m.rank ≠ l.rank) :
    p.declareLock l = .ok { p with locks := insertByRank l p.locks } := by
  unfold declareLock
  refine if_neg fun htaken => ?_
  obtain ⟨m, hm, hsame⟩ := List.any_eq_true.1 htaken
  obtain ⟨hname, hrank⟩ := hnew m hm
  simp [hname, hrank] at hsame

/-- The flags of a lawful field pass their check. -/
theorem checkFlags_of_lawful (h : f.Lawful locks) : checkFlags f = .ok () := by
  have hconstant : ¬(f.constant && (f.tier ≠ .global || f.lock?.isSome)) = true := by
    intro hbad
    obtain ⟨hc, hrest⟩ := Bool.and_eq_true_iff.1 hbad
    obtain ⟨htier, hlock⟩ := h.constant hc
    simp [htier, hlock] at hrest
  have hexported : ¬(f.exported && !f.tier.isShared) = true := by
    intro hbad
    obtain ⟨he, hrest⟩ := Bool.and_eq_true_iff.1 hbad
    simp [Tier.isShared_iff.2 (h.exported he)] at hrest
  have hpersistent : ¬(f.persistent && f.tier ≠ .perThread) = true := by
    intro hbad
    obtain ⟨hp, hrest⟩ := Bool.and_eq_true_iff.1 hbad
    simp [h.persistent hp] at hrest
  unfold checkFlags
  rw [if_neg hconstant, if_neg hexported, if_neg hpersistent]

/-- A lock may guard a global field in the way in which it guards its other fields. -/
theorem checkGuard_of_kinds (h : p.Sound) {kind : Protection.Kind} (hl : l ∈ p.locks)
    (hkinds : ∀ g ∈ p.fields, g.lock? = some l → g.protection.kind = kind) :
    p.checkGuard name .global l kind = .ok () := by
  have hfind : (p.guardedFields l.name).find? (fun n => (p.protection? n).map (·.kind) ≠ some kind) =
      none := by
    rw [List.find?_eq_none]
    intro n hn
    obtain ⟨g, hg, rfl, m, hm, hname⟩ := (h.guarded l.name n).1 hn
    obtain rfl := h.wellFormed.distinct.eq_of_name (((h.lawful g hg).locked m hm).2.2) hl hname
    have hprotection : p.protection? g.name = some g.protection := by
      unfold protection?
      rw [h.field?_eq_some.2 ⟨hg, rfl⟩]
      rfl
    simp [hprotection, hkinds g hg hm]
  unfold checkGuard
  rw [if_neg (by simp [Tier.isShared]), if_neg (not_not.2 hl), hfind]

/-- A name that no field has is not in the index. -/
theorem Sound.new_of_not_mem (h : p.Sound) (hnew : ∀ g ∈ p.fields, g.name ≠ name) :
    p.index.get? name = none := by
  refine Option.eq_none_iff_forall_ne_some.2 fun k hk => ?_
  obtain ⟨g, hg, hname⟩ := (h.index name k).1 hk
  exact hnew g (List.mem_of_getElem? hg) hname

/-! ## One more declaration -/

/-- A lock is accepted exactly when it is distinct from the others. -/
theorem declareLock_iff : (∃ p', p.declareLock l = .ok p') ↔
    ∀ m ∈ p.locks, m.name ≠ l.name ∧ m.rank ≠ l.rank :=
  ⟨fun ⟨_, hok⟩ => (declareLock_ok hok).1, fun hnew => ⟨_, declareLock_of_new hnew⟩⟩

/-- A field goes behind the others. -/
theorem declare_parts (hok : p.declare f = .ok p') :
    p'.locks = p.locks ∧ p'.fields = p.fields ++ [f] := by
  obtain ⟨-, -, ⟨-, rfl⟩ | ⟨l, u, -, -, rfl⟩⟩ := declare_ok hok <;> exact ⟨rfl, rfl⟩

/-- A field that fits together with the policy is taken. -/
theorem declare_of_wellFormed (h : p.Sound) (hfits : WellFormed p.locks (p.fields ++ [f])) :
    ∃ p', p.declare f = .ok p' := by
  have hmem : f ∈ p.fields ++ [f] := List.mem_append_right _ List.mem_cons_self
  have hlawful := hfits.lawful f hmem
  have hnew : ∀ g ∈ p.fields, g.name ≠ f.name := (nodup_map_concat.1 hfits.names).2
  unfold declare
  rw [if_neg (by simp [Table.contains, h.new_of_not_mem hnew]), checkFlags_of_lawful hlawful]
  cases hl : f.lock? with
  | none => exact ⟨_, rfl⟩
  | some l =>
    obtain ⟨htier, -, hdeclared⟩ := hlawful.locked l hl
    -- the other fields of the lock are guarded as this one, since all of them fit together
    have hguard : p.checkGuard f.name f.tier l f.protection.kind = .ok () := by
      rw [htier]
      exact checkGuard_of_kinds h hdeclared fun g hg hm =>
        hfits.kinds g (List.mem_append_left _ hg) f hmem l hm hl
    exact ⟨(p.join l f.name).push f, by simp only [hguard]; rfl⟩

/-- A field is accepted exactly when it fits together with what is there. -/
theorem declare_iff (h : p.Sound) :
    (∃ p', p.declare f = .ok p') ↔ WellFormed p.locks (p.fields ++ [f]) := by
  constructor
  · rintro ⟨p', hok⟩
    obtain ⟨hlocks, hfields⟩ := declare_parts hok
    rw [← hlocks, ← hfields]
    exact (h.declare hok).wellFormed
  · exact declare_of_wellFormed h

/-! ## All declarations -/

/-- The policy is made of the locks and the fields. -/
structure MadeOf (p : Policy) (locks : List Lock) (fields : List Field) : Prop where
  sound : p.Sound
  locks : p.locks.Perm locks
  fields : p.fields = fields

namespace MadeOf

theorem empty : MadeOf {} [] [] := ⟨.empty, .nil, rfl⟩

/-- A lock that is declared is one more that the policy is made of. -/
theorem declareLock (h : p.MadeOf locks fields) (hok : p.declareLock l = .ok p') :
    p'.MadeOf (locks ++ [l]) fields := by
  have hsound := h.sound.declareLock hok
  obtain ⟨-, rfl⟩ := declareLock_ok hok
  have hperm : (insertByRank l p.locks).Perm (l :: locks) :=
    (insertByRank_perm l p.locks).trans (h.locks.cons l)
  exact ⟨hsound, hperm.trans (List.perm_append_singleton l _).symm, h.fields⟩

/-- A field that is declared is one more that the policy is made of. -/
theorem declare (h : p.MadeOf locks fields) (hok : p.declare f = .ok p') :
    p'.MadeOf locks (fields ++ [f]) := by
  obtain ⟨hlocks, hfields⟩ := declare_parts hok
  exact ⟨h.sound.declare hok, hlocks ▸ h.locks, by rw [hfields, h.fields]⟩

/-- The next lock is taken exactly when it is distinct from those before it. -/
theorem declareLock_iff (h : p.MadeOf locks []) (hdistinct : Lock.Distinct locks) :
    (∃ p', p.declareLock l = .ok p') ↔ Lock.Distinct (locks ++ [l]) := by
  rw [Policy.declareLock_iff, Lock.Distinct.concat_iff, and_iff_right hdistinct]
  exact ⟨fun hnew m hm => hnew m (h.locks.symm.subset hm), fun hnew m hm => hnew m (h.locks.subset hm)⟩

/-- The next field is taken exactly when it fits together with those before it. -/
theorem declare_iff (h : p.MadeOf locks fields) :
    (∃ p', p.declare f = .ok p') ↔ WellFormed locks (fields ++ [f]) := by
  rw [Policy.declare_iff h.sound, h.fields]
  exact ⟨fun hfits => hfits.perm h.locks.symm (.refl _), fun hfits => hfits.perm h.locks (.refl _)⟩

end MadeOf

/-- A policy that takes locks is made of these. -/
theorem ofLocks_parts (hok : ofLocks locks = .ok p) : p.MadeOf locks [] :=
  foldlM_kept (fun ls p => MadeOf p ls []) MadeOf.declareLock .empty hok

/-- Locks are accepted exactly when they are distinct. -/
theorem ofLocks_ok_iff : (∃ p, ofLocks locks = .ok p) ↔ Lock.Distinct locks :=
  foldlM_ok_iff (fun ls p => MadeOf p ls []) MadeOf.declareLock Lock.Distinct.start
    MadeOf.declareLock_iff .empty .empty

/-- Fields are accepted by a policy of locks exactly when they fit together with these. -/
theorem foldlM_declare_ok_iff (h : p.MadeOf locks []) :
    (∃ p', fields.foldlM declare p = .ok p') ↔ WellFormed locks fields := by
  have hdistinct : Lock.Distinct locks := h.sound.wellFormed.distinct.perm h.locks.symm
  exact foldlM_ok_iff (fun fs p => MadeOf p locks fs) MadeOf.declare
    WellFormed.start (fun hkept _ => hkept.declare_iff) h (.empty hdistinct)

/-- A policy is made of exactly those locks and fields that fit together. -/
theorem ofDeclarations_ok_iff :
    (∃ p, ofDeclarations locks fields = .ok p) ↔ WellFormed locks fields := by
  constructor
  · rintro ⟨p, hok⟩
    obtain ⟨p₀, hlocks, hfields⟩ := bind_eq_ok.1 hok
    exact (foldlM_declare_ok_iff (ofLocks_parts hlocks)).1 ⟨p, hfields⟩
  · intro hfits
    obtain ⟨p₀, hlocks⟩ := ofLocks_ok_iff.2 hfits.distinct
    obtain ⟨p, hfields⟩ := (foldlM_declare_ok_iff (ofLocks_parts hlocks)).2 hfits
    exact ⟨p, bind_eq_ok.2 ⟨p₀, hlocks, hfields⟩⟩

/-- Whether locks and fields make a policy: they do exactly when they fit together, so it does not
matter in which order the locks are given, nor the fields. -/
theorem acceptance (locks : List Lock) (fields : List Field) :
    ((∃ p, ofDeclarations locks fields = .ok p) ↔ WellFormed locks fields) ∧
      ∀ locks' fields', locks'.Perm locks → fields'.Perm fields →
        ((∃ p, ofDeclarations locks' fields' = .ok p) ↔ ∃ p, ofDeclarations locks fields = .ok p) := by
  refine ⟨ofDeclarations_ok_iff, fun locks' fields' hlocks hfields => ?_⟩
  rw [ofDeclarations_ok_iff, ofDeclarations_ok_iff]
  exact ⟨fun h => h.perm hlocks.symm hfields.symm, fun h => h.perm hlocks hfields⟩

/-- The declarations of the state layer itself make a policy also when they are given backwards. -/
theorem builtin_backwards :
    Lock.builtin.reverse.Perm Lock.builtin ∧
      (Builtin.fields true).reverse.Perm (Builtin.fields true) ∧
      ∃ p, ofDeclarations Lock.builtin.reverse (Builtin.fields true).reverse = .ok p :=
  ⟨List.reverse_perm _, List.reverse_perm _,
    ((acceptance Lock.builtin (Builtin.fields true)).2 _ _ (List.reverse_perm _)
      (List.reverse_perm _)).2 ⟨_, rfl⟩⟩

end Policy

end TieredState
