import TieredState.Policy.InPlace
import TieredState.Policy.Render
import TieredState.Proofs.Edits
import TieredState.Proofs.PolicyRules

/-!
# Refused declarations

A policy that is built in place is changed part by part: a field goes to its lock's group, to the index
and to the list of fields, one after the other. There are a dozen ways for a declaration to be refused,
and all of them come before the first change. So whoever is refused may report it and go on with the
policy.

* `Policy.perform` — the declarations in place.
* `Policy.apply_perform` — they do what `accept` says.
* `Policy.perform_atomic` — each of them asks all it has to ask before it changes anything.
* `Policy.refusal_changes_nothing` — a declaration that is refused leaves the policy as it was, and
  might as well not have been made.
-/

namespace TieredState.Policy

open Edit

/-- Make a declaration in place. -/
def perform : Declaration → Edit Policy DeclarationError Unit
  | .lock l => InPlace.declareLock l
  | .field f => InPlace.declare f
  | .guard name protection => InPlace.bind name protection

variable {p p' : Policy} {f : Field} {l : Lock} {name : String} {protection : Protection}
variable {d : Declaration}

/-! ## Questions before changes -/

/-- A lock that is refused has changed nothing. -/
theorem declareLock_atomic (l : Lock) : (InPlace.declareLock l).Atomic :=
  (refuseIf_readOnly _ _).bind_atomic fun _ => (change_total _).atomic

/-- A group that refuses a field has not changed. -/
theorem enterGroup_atomic (f : Field) : (InPlace.enterGroup f).Atomic := by
  unfold InPlace.enterGroup
  cases f.lock? with
  | none => exact (pure_total ()).atomic
  | some l => exact (ask_readOnly _).bind_atomic fun _ => (change_total _).atomic

/-- Once a field is in its lock's group nothing can refuse it any more. -/
theorem declare_atomic (f : Field) : (InPlace.declare f).Atomic := by
  refine (refuseIf_readOnly _ _).bind_atomic fun _ => (ask_readOnly _).bind_atomic fun _ => ?_
  exact (enterGroup_atomic f).bind fun _ => (change_total _).bind fun _ => change_total _

/-- A protection that is refused has changed nothing. -/
theorem bind_atomic (name : String) (protection : Protection) :
    (InPlace.bind name protection).Atomic := by
  refine (ask_readOnly _).bind_atomic fun (k, f) => ?_
  cases protection.lock? with
  | none => exact (pure_total ()).atomic
  | some l =>
    refine (ask_readOnly _).bind_atomic fun _ => (refuseIf_readOnly _ _).bind_atomic fun _ => ?_
    refine (ask_readOnly _).bind_atomic fun _ => ?_
    exact ((change_total _).bind fun _ => change_total _).atomic

/-- No declaration in place has changed anything when it is refused. -/
theorem perform_atomic (d : Declaration) : (perform d).Atomic := by
  cases d with
  | lock l => exact declareLock_atomic l
  | field f => exact declare_atomic f
  | guard name protection => exact bind_atomic name protection

/-! ## What comes of a declaration -/

/-- A declaration that is accepted gives the policy that is left, and one that is refused leaves the
policy as it was. -/
def settled (p : Policy) : Except DeclarationError Policy → Except DeclarationError Unit × Policy
  | .ok p' => (.ok (), p')
  | .error e => (.error e, p)

/-- A lock is declared in place as it is from policy to policy. -/
theorem apply_declareLock : (InPlace.declareLock l).apply p = p.settled (p.declareLock l) := by
  unfold InPlace.declareLock declareLock
  rw [apply_refuseIf_bind]
  split <;> rfl

/-- A field without a lock enters no group. -/
theorem apply_enterGroup_none (h : f.lock? = none) : (InPlace.enterGroup f).apply p = (.ok (), p) := by
  unfold InPlace.enterGroup
  rw [h]
  rfl

/-- A field with a lock enters its group after the check. -/
theorem apply_enterGroup_some (h : f.lock? = some l) : (InPlace.enterGroup f).apply p =
    match p.checkGuard f.name f.tier l f.protection.kind with
    | .ok _ => (.ok (), p.join l f.name)
    | .error e => (.error e, p) := by
  unfold InPlace.enterGroup
  rw [h]
  exact apply_ask_bind.trans (by cases p.checkGuard f.name f.tier l f.protection.kind <;> rfl)

/-- A field is declared in place as it is from policy to policy. -/
theorem apply_declare : (InPlace.declare f).apply p = p.settled (p.declare f) := by
  unfold InPlace.declare declare
  rw [apply_refuseIf_bind]
  -- the questions come in the same order, and nothing is changed before the last of them
  split
  · rfl
  · rw [apply_ask_bind]
    cases checkFlags f with
    | error e => rfl
    | ok u =>
      cases hlock : f.lock? with
      | none => exact apply_bind_ok (apply_enterGroup_none hlock)
      | some l =>
        have hgroup := apply_enterGroup_some (p := p) hlock
        cases hcheck : p.checkGuard f.name f.tier l f.protection.kind with
        | error e =>
          rw [hcheck] at hgroup
          refine (apply_bind_error hgroup).trans ?_
          simp only [hcheck]
          rfl
        | ok u =>
          rw [hcheck] at hgroup
          refine (apply_bind_ok hgroup).trans ?_
          simp only [hcheck]
          rfl

/-- A field is given its lock in place as it is from policy to policy. -/
theorem apply_bind : (InPlace.bind name protection).apply p = p.settled (p.bind name protection) := by
  unfold InPlace.bind bind InPlace.locate
  rw [apply_ask_bind]
  cases hfound : (p.index.get? name).bind fun k => p.fields[k]?.map (k, ·) with
  | none => rfl
  | some found =>
    obtain ⟨k, f⟩ := found
    dsimp only
    cases protection.lock? with
    | none => rfl
    | some l =>
      dsimp only
      rw [apply_ask_bind]
      cases f.lock? with
      | some existing => rfl
      | none =>
        dsimp only
        rw [apply_refuseIf_bind]
        split
        · rfl
        · rw [apply_ask_bind]
          cases hcheck : p.checkGuard name f.tier l protection.kind with
          | error e => rfl
          | ok u =>
            -- the name is found, so the place that it stands for is one of the list
            obtain ⟨j, -, hj⟩ := Option.bind_eq_some_iff.1 hfound
            obtain ⟨g, hg, heq⟩ := Option.map_eq_some_iff.1 hj
            obtain ⟨rfl, rfl⟩ := Prod.mk.inj heq
            have hfields : p.fields.modify j (fun h => { h with protection }) =
                p.fields.set j { g with protection } := by
              rw [List.modify_eq_set_getElem?, hg]
              rfl
            exact congrArg (fun fields => p.settled (.ok { p.join l name with fields })) hfields

/-- A declaration in place is the declaration of `accept`. -/
theorem apply_perform (p : Policy) (d : Declaration) :
    (perform d).apply p = p.settled (p.accept d) := by
  cases d with
  | lock l => exact apply_declareLock
  | field f => exact apply_declare
  | guard name protection => exact apply_bind

/-- Declarations in place build the same policy. -/
theorem after_perform (p : Policy) (ds : List Declaration) :
    Edit.after perform p ds = ds.foldl Policy.after p := by
  have hstep : ∀ p d, ((perform d).apply p).2 = p.after d := by
    intro p d
    rw [apply_perform]
    unfold Policy.after
    cases p.accept d <;> rfl
  unfold Edit.after
  simp only [hstep]

/-- A declaration that is refused leaves the policy as it was, whatever the policy and for whatever
reason. So when declarations are made one after another and some of them are refused, the others come to
the same without these, and to the same policy. -/
theorem refusal_changes_nothing (p : Policy) :
    (∀ d e p', (perform d).apply p = (.error e, p') → p' = p) ∧
      ∀ ds, Edit.after perform p (heeded (outcomes perform p ds)) = Edit.after perform p ds ∧
        outcomes perform p (heeded (outcomes perform p ds)) =
          (outcomes perform p ds).filter (·.2.isOk) :=
  ⟨fun d e p' => perform_atomic d p e p', fun ds => after_heeded perform_atomic p ds⟩

/-- A policy whose allocation figures have one field, behind a mutex. -/
def ofLimit : Policy := build [
  .lock .alloc,
  .field { name := "limit", tier := .global, type := "usize", protection := .mutex .alloc }]

/-- A second field with the lock that readers are to share. -/
def peak : Field :=
  { name := "peak", tier := .global, type := "usize", protection := .readMostly .alloc }

/-- The second field is refused by the last check that there is, and is in no part of the policy then. -/
theorem ofLimit_unmixed :
    (perform (.field peak)).apply ofLimit =
      (.error (.lockKindConflict "alloc" "peak" "limit"), ofLimit) := by
  have herror : ((perform (.field peak)).apply ofLimit).1 =
      .error (.lockKindConflict "alloc" "peak" "limit") := rfl
  exact Prod.ext herror ((refusal_changes_nothing ofLimit).1 _ _ _ (Prod.ext herror rfl))

end TieredState.Policy
