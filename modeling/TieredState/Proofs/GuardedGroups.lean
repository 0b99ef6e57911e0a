import Mathlib.Data.List.Pairwise
import TieredState.Policy.Render
import TieredState.Proofs.PolicyRules

/-!
# The order of a lock's fields

A field comes under a lock with its own declaration or later, and either way its name goes to the end
of the lock's group. The table of text shows the groups, so they are read as if they followed the
order in which the fields are declared. They do so as long as no field is given a lock after a field
that was declared behind it.

* `Policy.joined` — the fields that come under a lock, in the order in which they do.
* `Policy.fieldsUnder` — the fields that have the lock, in the order of their declaration.
* `Policy.InTurn` — no field comes under the lock behind one that was declared after it.
* `Policy.groups_in_turn` — a group is in the order in which its fields come under the lock, and this
  is the order of their declaration exactly when they do so in turn.
* `Policy.overtaken` — fields do not always come under a lock in turn.
-/

namespace TieredState

/-- One entry stands before another in a list. -/
def Before (names : List String) (x y : String) : Prop := [x, y].Sublist names

section Before

variable {names : List String} {x y n : String}

/-- In a list each entry stands before those after it. -/
theorem pairwise_before (names : List String) : names.Pairwise (Before names) :=
  List.pairwise_iff_forall_sublist.2 id

/-- Entries that stand in an order are in the list. -/
theorem Before.mem (h : Before names x y) : x ∈ names ∧ y ∈ names :=
  ⟨h.subset (by simp), h.subset (by simp)⟩

/-- A longer list keeps the order of its beginning. -/
theorem Before.append (h : Before names x y) : Before (names ++ [n]) x y :=
  h.trans (List.sublist_append_left _ _)

/-- In a list that repeats nothing, no two entries stand before each other. -/
theorem Before.asymm (hnames : names.Nodup) (h : Before names x y) : ¬Before names y x := by
  induction names with
  | nil => cases h
  | cons n ns ih =>
    obtain ⟨hout, hns⟩ := List.nodup_cons.1 hnames
    unfold Before at h ih ⊢
    rw [List.cons_sublist_cons', List.singleton_sublist] at h ⊢
    -- an entry that is first stands nowhere else, so one of the two orders is within the rest
    rintro (hrest | ⟨rfl, hx⟩)
    · rcases h with hin | ⟨rfl, hy⟩
      · exact ih hns hin hrest
      · exact hout (Before.mem hrest).2
    · rcases h with hin | ⟨rfl, hy⟩
      · exact hout (Before.mem hin).2
      · exact hout hx

/-- Of two entries one stands before the other. -/
theorem before_or_before (hx : x ∈ names) (hy : y ∈ names) (hne : x ≠ y) :
    Before names x y ∨ Before names y x := by
  have : Std.Symm (fun a b => Before names a b ∨ Before names b a) := ⟨fun _ _ => Or.symm⟩
  have hpairs : names.Pairwise fun a b => Before names a b ∨ Before names b a :=
    (pairwise_before names).imp Or.inl
  exact hpairs.forall hx hy hne

/-- Of two entries one stands before the other if the other does not stand before it. -/
theorem before_iff_not (hnames : names.Nodup) (hx : x ∈ names) (hy : y ∈ names) (hne : x ≠ y) :
    Before names x y ↔ ¬Before names y x :=
  ⟨fun h => h.asymm hnames, fun h => (before_or_before hx hy hne).resolve_right h⟩

/-- One more entry at the end makes no difference to the others. -/
theorem before_concat_iff (hnames : (names ++ [n]).Nodup) (hx : x ∈ names) (hy : y ∈ names) :
    Before (names ++ [n]) x y ↔ Before names x y := by
  refine ⟨fun h => ?_, Before.append⟩
  have hne : x ≠ y := by
    rintro rfl
    exact h.asymm hnames h
  rcases before_or_before hx hy hne with hxy | hyx
  · exact hxy
  · exact absurd hyx.append (h.asymm hnames)

/-- Every other entry stands before the last. -/
theorem before_last (hx : x ∈ names) : Before (names ++ [n]) x n :=
  (List.singleton_sublist.2 hx).append (.refl [n])

end Before

/-- The name of the lock that guards. -/
def Protection.lockName? (protection : Protection) : Option String := protection.lock?.map (·.name)

namespace Policy

open Text

/-- The field that the declaration puts under the lock. -/
def joins? (lock : String) : Declaration → Option String
  | .lock _ => none
  | .field f => if f.protection.lockName? = some lock then some f.name else none
  | .guard name protection => if protection.lockName? = some lock then some name else none

/-- The fields that declarations put under the lock, in the order in which they do. -/
def joined (lock : String) (log : List Declaration) : List String := log.filterMap (joins? lock)

/-- The fields that are declared, in order. -/
def declared (log : List Declaration) : List String := (log.filterMap fieldOf?).map (·.name)

/-- The fields that have the lock, in the order of their declaration. -/
def fieldsUnder (p : Policy) (lock : String) : List String :=
  (p.fields.filter (·.protection.lockName? = some lock)).map (·.name)

/-- No field is given the lock when a field that was declared after it is under the lock already. -/
def InTurn (lock : String) (log : List Declaration) : Prop :=
  ∀ earlier name protection, earlier ++ [.guard name protection] <+: log →
    protection.lockName? = some lock → ∀ later ∈ joined lock earlier,
      ¬Before (declared earlier) name later

/-- The line of a lock in the table of text. -/
def lockRow (l : Lock) (names : List String) : String :=
  let group := match names with
    | [] => "-"
    | names => joinWith ", " names
  "  " ++ padLeft 3 (toString l.rank) ++ "  " ++ padRight 14 l.name ++ " " ++ group ++ "\n"

variable {p p' : Policy} {lock : String} {log : List Declaration} {d : Declaration} {f : Field}
variable {name : String} {protection : Protection}

/-! ## One more declaration -/

/-- A declaration puts one more field under the lock at most. -/
theorem joined_concat : joined lock (log ++ [d]) = joined lock log ++ (joins? lock d).toList := by
  unfold joined
  rw [List.filterMap_append, List.filterMap_cons]
  cases joins? lock d <;> rfl

/-- A field that is declared comes last. -/
theorem declared_concat_field : declared (log ++ [.field f]) = declared log ++ [f.name] := by
  simp [declared, fieldOf?]

/-- A declaration of anything else declares no field. -/
theorem declared_concat_of_none (h : fieldOf? d = none) :
    declared (log ++ [d]) = declared log := by
  simp [declared, h]

/-- A lock's group grows by the field that is put under the lock. -/
theorem guardedFields_accept (hok : p.accept d = .ok p') :
    p'.guardedFields lock = p.guardedFields lock ++ (joins? lock d).toList := by
  -- joining adds the field to the group of that lock's name, and to no other
  have hjoin : ∀ (l : Lock) name, (p.join l name).guardedFields lock =
      p.guardedFields lock ++ (if some l.name = some lock then some name else none).toList := by
    intro l name
    rw [guardedFields_join]
    by_cases heq : lock = l.name <;> simp [heq, eq_comm]
  cases d with
  | lock l =>
    obtain ⟨-, rfl⟩ := declareLock_ok hok
    exact (List.append_nil _).symm
  | field f =>
    obtain ⟨-, -, ⟨hnone, rfl⟩ | ⟨l, u, hl, -, rfl⟩⟩ := declare_ok hok
    · rw [joins?, Protection.lockName?, show f.protection.lock? = none from hnone]
      exact (List.append_nil _).symm
    · rw [joins?, Protection.lockName?, show f.protection.lock? = some l from hl]
      exact hjoin l f.name
  | guard name protection =>
    rcases bind_ok hok with ⟨hnone, rfl⟩ | ⟨k, f, l, u, -, -, hl, -, -, -, rfl⟩
    · rw [joins?, Protection.lockName?, hnone]
      exact (List.append_nil _).symm
    · rw [joins?, Protection.lockName?, hl]
      exact hjoin l name

/-- Declarations that come in turn still do with one more, unless that gives the lock to a field and one
that was declared after it is under the lock. -/
theorem inTurn_concat_iff : InTurn lock (log ++ [d]) ↔ InTurn lock log ∧
    ∀ name protection, d = .guard name protection → protection.lockName? = some lock →
      ∀ later ∈ joined lock log, ¬Before (declared log) name later := by
  constructor
  · intro h
    refine ⟨fun earlier name protection hpre => ?_, fun name protection hd => ?_⟩
    · exact h earlier name protection (List.prefix_concat_iff.2 (.inr hpre))
    · exact h log name protection (hd ▸ List.prefix_rfl)
  · rintro ⟨hlog, hlast⟩ earlier name protection hpre
    rcases List.prefix_concat_iff.1 hpre with heq | hpre
    · obtain ⟨rfl, hd⟩ := List.append_inj' heq rfl
      exact hlast name protection (List.cons.inj hd).1.symm
    · exact hlog earlier name protection hpre

/-! ## Groups and declarations -/

/-- The policy obeys its rules and has what the declarations `log` have declared, each lock's group in
the order in which the fields came under the lock. -/
structure Grouped (p : Policy) (log : List Declaration) : Prop where
  sound : p.Sound
  records : p.Records log
  group : ∀ lock, p.guardedFields lock = joined lock log

namespace Grouped

/-- A policy without declarations has no groups. -/
theorem empty : Grouped {} [] := ⟨.empty, .empty, fun _ => rfl⟩

/-- An accepted declaration goes to the end of its group. -/
theorem accept (h : p.Grouped log) (hok : p.accept d = .ok p') : p'.Grouped (log ++ [d]) where
  sound := h.sound.accept hok
  records := h.records.accept h.sound hok
  group lock := by rw [guardedFields_accept hok, h.group, joined_concat]

/-- The fields of a policy are those that were declared, in the same order. -/
theorem names_eq (h : p.Grouped log) : p.fields.map (·.name) = declared log := by
  rw [h.records.fields, List.map_map]
  rfl

/-- No field is declared twice. -/
theorem nodup_declared (h : p.Grouped log) : (declared log).Nodup :=
  h.names_eq ▸ h.sound.fieldNames

/-- No field comes under a lock twice. -/
theorem nodup_joined (h : p.Grouped log) : (joined lock log).Nodup :=
  h.group lock ▸ h.sound.guardedOnce lock

/-- The fields that came under a lock are those that it protects. -/
theorem mem_joined_iff (h : p.Grouped log) :
    name ∈ joined lock log ↔ ∃ f ∈ p.fields, f.name = name ∧ f.protection.lockName? = some lock := by
  rw [← h.group, h.sound.guarded]
  simp [Protection.lockName?, Field.lock?]

/-- A field that came under a lock was declared. -/
theorem mem_declared (h : p.Grouped log) (hname : name ∈ joined lock log) : name ∈ declared log := by
  obtain ⟨f, hf, rfl, -⟩ := h.mem_joined_iff.1 hname
  exact h.names_eq ▸ List.mem_map_of_mem hf

/-- The fields of a lock are those that came under it. -/
theorem perm (h : p.Grouped log) : (joined lock log).Perm (p.fieldsUnder lock) := by
  have hunder : (p.fieldsUnder lock).Nodup := h.sound.fieldNames.sublist (List.filter_sublist.map _)
  rw [List.perm_ext_iff_of_nodup h.nodup_joined hunder]
  intro name
  rw [h.mem_joined_iff]
  simp only [fieldsUnder, List.mem_map, List.mem_filter, decide_eq_true_eq]
  exact exists_congr fun f => by tauto

/-- The group is as the fields were declared when each of its fields was declared after those before
it. -/
theorem eq_fieldsUnder_iff (h : p.Grouped log) : joined lock log = p.fieldsUnder lock ↔
    (joined lock log).Pairwise (Before (declared log)) := by
  have hunder : (p.fieldsUnder lock).Pairwise (Before (declared log)) := by
    have hsub : (p.fieldsUnder lock).Sublist (declared log) :=
      h.names_eq ▸ List.filter_sublist.map _
    exact (pairwise_before _).sublist hsub
  constructor
  · intro heq
    exact heq ▸ hunder
  · intro hjoined
    -- both lists have the same entries and go by one order, so there is no other way to list them
    refine List.Perm.eq_of_pairwise (fun x y _ _ hxy hyx => ?_) hjoined hunder h.perm
    exact absurd hyx (hxy.asymm h.nodup_declared)

end Grouped

/-- The fields that are under the lock came under it in the order in which they were declared. -/
def Ordered (lock : String) (log : List Declaration) : Prop :=
  (joined lock log).Pairwise (Before (declared log))

/-- A field that is declared is behind all others. -/
theorem ordered_field_iff (h : p.Grouped log) (h' : p'.Grouped (log ++ [.field f])) :
    Ordered lock (log ++ [.field f]) ↔ Ordered lock log := by
  have hnodup : (declared log ++ [f.name]).Nodup := declared_concat_field ▸ h'.nodup_declared
  have hold : (joined lock log).Pairwise (Before (declared log ++ [f.name])) ↔ Ordered lock log :=
    List.Pairwise.iff_of_mem fun hx hy =>
      before_concat_iff hnodup (h.mem_declared hx) (h.mem_declared hy)
  unfold Ordered
  rw [joined_concat, declared_concat_field, List.pairwise_append, hold]
  refine ⟨And.left, fun hordered => ⟨hordered, ?_, fun x hx y hy => ?_⟩⟩
  · cases joins? lock (.field f) <;> simp
  · obtain rfl : y = f.name := by
      unfold joins? at hy
      split at hy <;> simp_all
    exact before_last (h.mem_declared hx)

/-- A field that is given the lock has to be behind all that have it. -/
theorem ordered_guard_iff (h : p.Grouped log) (h' : p'.Grouped (log ++ [.guard name protection])) :
    Ordered lock (log ++ [.guard name protection]) ↔ Ordered lock log ∧
      (protection.lockName? = some lock → ∀ x ∈ joined lock log, ¬Before (declared log) name x) := by
  have hdeclared : declared (log ++ [.guard name protection]) = declared log :=
    declared_concat_of_none rfl
  unfold Ordered
  by_cases hlock : protection.lockName? = some lock
  -- the field comes last in the group, and is none of those that are in it
  · have hjoined : joined lock (log ++ [.guard name protection]) = joined lock log ++ [name] := by
      rw [joined_concat]
      simp [joins?, hlock]
    have hname : name ∈ declared log := by
      have hin : name ∈ joined lock (log ++ [.guard name protection]) := by simp [hjoined]
      exact hdeclared ▸ h'.mem_declared hin
    have hnew : ∀ x ∈ joined lock log, x ≠ name := by
      rintro x hx rfl
      have hnodup := hjoined ▸ h'.nodup_joined
      exact (List.nodup_append.1 hnodup).2.2 x hx x (by simp) rfl
    have hlast : (∀ x ∈ joined lock log, ∀ y ∈ [name], Before (declared log) x y) ↔
        ∀ x ∈ joined lock log, ¬Before (declared log) name x := by
      simp only [List.mem_singleton, forall_eq]
      exact forall₂_congr fun x hx =>
        before_iff_not h.nodup_declared (h.mem_declared hx) hname (hnew x hx)
    rw [hjoined, hdeclared, List.pairwise_append, hlast]
    simp [hlock]
  · have hjoined : joined lock (log ++ [.guard name protection]) = joined lock log := by
      rw [joined_concat]
      simp [joins?, hlock]
    rw [hjoined, hdeclared]
    simp [hlock]

/-- The next declaration puts the group out of order exactly when it is out of turn. -/
theorem ordered_iff_inTurn_step (h : p.Grouped log) (h' : p'.Grouped (log ++ [d]))
    (hlog : Ordered lock log ↔ InTurn lock log) :
    Ordered lock (log ++ [d]) ↔ InTurn lock (log ++ [d]) := by
  rw [inTurn_concat_iff, ← hlog]
  -- what is declared with its lock goes to the end of both orders; only a late lock can upset one
  cases d with
  | lock l =>
    unfold Ordered
    rw [joined_concat, declared_concat_of_none rfl]
    simp [joins?]
  | field f => simp [ordered_field_iff h h']
  | guard name protection =>
    rw [ordered_guard_iff h h']
    simp

/-! ## Groups of all declarations -/

/-- A group without fields is in order. -/
theorem ordered_empty : Ordered lock [] ↔ InTurn lock [] := by
  refine ⟨fun _ earlier name protection hpre => ?_, fun _ => .nil⟩
  simpa using List.prefix_nil.1 hpre

/-- Every build keeps to this. -/
theorem grouped_build (ds : List Declaration) : (build ds).Grouped (accepted {} ds) ∧
    ∀ lock, Ordered lock (accepted {} ds) ↔ InTurn lock (accepted {} ds) :=
  kept_of_declarations
    (fun p log => p.Grouped log ∧ ∀ lock, Ordered lock log ↔ InTurn lock log)
    (fun h hok => ⟨h.1.accept hok, fun lock => ordered_iff_inTurn_step h.1 (h.1.accept hok) (h.2 lock)⟩)
    ds ⟨.empty, fun _ => ordered_empty⟩

/-- The table of text shows each lock with its group. -/
theorem render_eq (h : p.Grouped log) : p.render = "locks (acquisition order):\n" ++
    joinWith "" (p.locks.map fun l => lockRow l (joined l.name log)) ++
      joinWith "" (Tier.all.map p.renderTier) := by
  have hrow : ∀ l, p.renderLock l = lockRow l (joined l.name log) := by
    intro l
    rw [← h.group]
    rfl
  unfold render
  rw [List.map_congr_left fun l _ => hrow l]

/-- Whatever is declared: a lock's group, and so the lock's line in the table of text, lists the fields
that have the lock in the order in which they came under it. That is the order of their declaration
exactly when they came under it in turn. -/
theorem groups_in_turn (ds : List Declaration) :
    (∀ lock, (build ds).guardedFields lock = joined lock (accepted {} ds) ∧
      (joined lock (accepted {} ds)).Perm ((build ds).fieldsUnder lock) ∧
      (joined lock (accepted {} ds) = (build ds).fieldsUnder lock ↔ InTurn lock (accepted {} ds))) ∧
    (build ds).render = "locks (acquisition order):\n" ++
      joinWith "" ((build ds).locks.map fun l => lockRow l (joined l.name (accepted {} ds))) ++
      joinWith "" (Tier.all.map (build ds).renderTier) := by
  obtain ⟨hgrouped, hordered⟩ := grouped_build ds
  refine ⟨fun lock => ⟨hgrouped.group lock, hgrouped.perm, ?_⟩, render_eq hgrouped⟩
  rw [hgrouped.eq_fieldsUnder_iff]
  exact hordered lock

/-- A lock and two fields, of which the first is given the lock after the second. -/
def lateGuard : List Declaration :=
  let alloc : Lock := ⟨"alloc", 60⟩
  [.lock alloc, .field { name := "limit", tier := .global, type := "usize" },
    .field { name := "peak", tier := .global, type := "usize", protection := .mutex alloc },
    .guard "limit" (.mutex alloc)]

/-- Not every group is in the order in which its fields are declared. -/
theorem overtaken : ¬∀ (ds : List Declaration) (lock : String),
    (build ds).guardedFields lock = (build ds).fieldsUnder lock := by
  intro h
  have halloc := h lateGuard "alloc"
  revert halloc
  decide

end Policy

end TieredState
