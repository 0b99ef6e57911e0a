import TieredState.Proofs.PolicyAcceptance
import TieredState.Proofs.RefusedDeclarations

/-!
# Guards that come later

A field may be declared with its lock, or without one and be given the lock afterwards. The checks are
not the same on the two ways and are made in another order: a constant with a lock is refused by the
rules on flags on the one, and on the other by `bind`, when it has been declared. The verdict is the same
for all that, and so is the policy.

* `Policy.checkFlags_iff_unlocked` — what the rules on flags have to say about the lock.
* `Policy.checkGuard_push` — a field without a lock makes no difference to whom a lock may guard.
* `Policy.declare_iff_bind` — the two ways on a policy that obeys its rules.
* `Policy.guard_early_or_late` — the two ways in place, after whatever declarations.
-/

namespace TieredState.Policy

variable {p p' : Policy} {f g : Field} {l : Lock} {name : String}

/-! ## The checks on the two ways -/

/-- The rules on flags allow a field the flags that it might have without its lock, and a lock unless
it is constant. -/
theorem checkFlags_iff_unlocked : checkFlags f = .ok () ↔
    checkFlags f.unlocked = .ok () ∧ (f.constant = true → f.lock? = none) := by
  constructor
  · intro h
    obtain ⟨hconstant, hexported, hpersistent⟩ := checkFlags_ok h
    have hlawful : f.unlocked.Lawful [] :=
      ⟨nofun, hexported, hpersistent, fun hc => ⟨(hconstant hc).1, rfl⟩⟩
    exact ⟨checkFlags_of_lawful hlawful, fun hc => (hconstant hc).2⟩
  · rintro ⟨h, hconstant⟩
    have hsame : checkFlags f = checkFlags f.unlocked := by
      unfold checkFlags
      cases hc : f.constant with
      | false => simp only [Field.unlocked, hc, Bool.false_and]
      | true =>
        simp only [Field.unlocked, hc, hconstant hc]
        rfl
    exact hsame.trans h

/-- The fields that a lock guards have been there before, so a field that goes behind them all and has
no lock yet makes no difference to whom the lock may guard. -/
theorem checkGuard_push (h : p.Sound) (hnew : p.index.get? g.name = none) (tier : Tier)
    (kind : Protection.Kind) :
    (p.push g).checkGuard name tier l kind = p.checkGuard name tier l kind := by
  -- a field that is under a lock keeps its place, since the new one goes behind all of them
  have hprotection : ∀ n ∈ p.guardedFields l.name, (p.push g).protection? n = p.protection? n := by
    intro n hn
    obtain ⟨f, hf, rfl, -⟩ := (h.guarded l.name n).1 hn
    obtain ⟨k, hk⟩ := List.mem_iff_getElem?.1 hf
    have hindex : (p.push g).index.get? f.name = p.index.get? f.name := by
      unfold push
      rw [Table.get?_insert, if_neg (h.not_mem_of_new hnew hf)]
    have hfield : (p.push g).field? f.name = p.field? f.name := by
      unfold field?
      rw [hindex, (h.index f.name k).2 ⟨f, hk, rfl⟩]
      exact List.getElem?_append_left (List.getElem?_eq_some_iff.1 hk).1
    unfold protection?
    rw [hfield]
  have hfind : ((p.push g).guardedFields l.name).find?
        (fun n => ((p.push g).protection? n).map (·.kind) ≠ some kind) =
      (p.guardedFields l.name).find? (fun n => (p.protection? n).map (·.kind) ≠ some kind) := by
    rw [← List.head?_filter, ← List.head?_filter]
    exact congrArg List.head? (List.filter_congr fun n hn => by rw [hprotection n hn])
  unfold checkGuard
  rw [hfind]
  rfl

/-! ## The two ways -/

/-- Put a new field under its lock, if it has one, and behind the others. -/
def enter (p : Policy) (f : Field) : Except DeclarationError Policy :=
  match f.lock? with
  | none => .ok (p.push f)
  | some l => do
    p.checkGuard f.name f.tier l f.protection.kind
    return (p.join l f.name).push f

/-- A field is declared when its name is new, its flags pass and it can enter its group. -/
theorem declare_iff_enter : p.declare f = .ok p' ↔
    p.index.get? f.name = none ∧ checkFlags f = .ok () ∧ p.enter f = .ok p' := by
  unfold declare
  constructor
  · intro h
    split at h
    · cases h
    · next hnew =>
      obtain ⟨u, hflags, henter⟩ := bind_eq_ok.1 h
      exact ⟨Option.not_isSome_iff_eq_none.1 hnew, hflags, henter⟩
  · rintro ⟨hnew, hflags, henter⟩
    rw [if_neg (by simp [Table.contains, hnew])]
    exact bind_eq_ok.2 ⟨(), hflags, henter⟩

/-- A field without a lock is itself without it. -/
theorem unlocked_eq_self (h : f.lock? = none) : f.unlocked = f := by
  have hprotection : f.protection = .unlocked := by
    unfold Field.lock? at h
    cases hp : f.protection with
    | unlocked => rfl
    | mutex l | readMostly l =>
      rw [hp] at h
      cases h
  unfold Field.unlocked
  rw [← hprotection]

/-- A field that has just been declared without its lock is given it if it might have had it from the
start. -/
theorem bind_push (h : p.Sound) (hnew : p.index.get? f.name = none) :
    (p.push f.unlocked).bind f.name f.protection =
      if f.constant = true ∧ f.lock?.isSome then .error (.invalidConstant f.name)
      else p.enter f := by
  have hfound : ((p.push f.unlocked).index.get? f.name).bind
      (fun k => (p.push f.unlocked).fields[k]?.map (k, ·)) =
        some (p.fields.length, f.unlocked) := by
    unfold push Field.unlocked
    simp
  unfold bind enter
  rw [hfound]
  dsimp only
  cases hlock : f.lock? with
  | none => rw [show f.protection.lock? = none from hlock, unlocked_eq_self hlock, if_neg (by simp)]
  | some l =>
    rw [show f.protection.lock? = some l from hlock]
    simp only [Option.isSome_some, and_true]
    rw [← checkGuard_push (g := f.unlocked) h hnew, push_join]
    rfl

/-- With its lock a field is accepted when it is accepted without one and may then be given the lock. -/
theorem declare_iff_bind (h : p.Sound) : p.declare f = .ok p' ↔
    ∃ p₁, p.declare f.unlocked = .ok p₁ ∧ p₁.bind f.name f.protection = .ok p' := by
  rw [declare_iff_enter, checkFlags_iff_unlocked]
  constructor
  · rintro ⟨hnew, ⟨hflags, hconstant⟩, henter⟩
    refine ⟨p.push f.unlocked, declare_iff_enter.2 ⟨hnew, hflags, rfl⟩, ?_⟩
    rw [bind_push h hnew, if_neg, henter]
    rintro ⟨hc, hlock⟩
    rw [hconstant hc] at hlock
    cases hlock
  · rintro ⟨p₁, hdeclare, hbind⟩
    obtain ⟨hnew, hflags, henter⟩ := declare_iff_enter.1 hdeclare
    obtain rfl : p.push f.unlocked = p₁ := Except.ok.inj henter
    rw [bind_push (f := f) h hnew] at hbind
    split at hbind
    · cases hbind
    · next hallowed =>
      refine ⟨hnew, ⟨hflags, fun hc => ?_⟩, hbind⟩
      exact Option.not_isSome_iff_eq_none.1 fun hlock => hallowed ⟨hc, hlock⟩

/-! ## The two ways in place -/

/-- A policy settles without an error only on what was accepted. -/
theorem settled_eq_ok {outcome : Except DeclarationError Policy} :
    p.settled outcome = (.ok (), p') ↔ outcome = .ok p' := by
  cases outcome with
  | ok p₁ => simp [settled]
  | error e => simp [settled]

/-- A field is declared with its lock exactly when it can be declared without one and then be given the
lock, whatever the field and whatever was declared before. The policy is the same on both ways. -/
theorem guard_early_or_late (ds : List Declaration) (f : Field) (protection : Protection)
    (p' : Policy) :
    (InPlace.declare { f with protection }).apply (Edit.after perform {} ds) = (.ok (), p') ↔
      ∃ p₁, (InPlace.declare { f with protection := .unlocked }).apply (Edit.after perform {} ds) =
          (.ok (), p₁) ∧
        (InPlace.bind f.name protection).apply p₁ = (.ok (), p') := by
  have hsound : (Edit.after perform {} ds).Sound := after_perform {} ds ▸ (build_sound ds).1
  simp only [apply_declare, apply_bind, settled_eq_ok]
  exact declare_iff_bind (f := { f with protection }) hsound

end TieredState.Policy
