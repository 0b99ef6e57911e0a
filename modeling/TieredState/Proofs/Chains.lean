import Mathlib.Data.List.Forall2

/-!
# Chains of calls that may fail

A check that reads a list goes from one entry to the next and stops at the first that it refuses. It
is right when it goes on exactly as long as what it has read is in order: `foldlM_ok_iff` carries that
from one step over to the whole list, and `foldlM_kept` what each step keeps. Where the entries are read
one by one into a list, `mapM_eq_ok` relates the two lists.
-/

namespace TieredState

variable {ε α β σ : Type}

/-- A chain of calls succeeds when each of them does. -/
theorem bind_eq_ok {x : Except ε α} {f : α → Except ε β} {b : β} :
    x >>= f = .ok b ↔ ∃ a, x = .ok a ∧ f a = .ok b := by
  cases x with
  | error e => simp [bind, Except.bind]
  | ok a => simp [bind, Except.bind]

section Fold

variable {step : σ → α → Except ε σ} (Kept : List α → σ → Prop) {InOrder : List α → Prop}

/-- What each step keeps of the entries read so far is so of all of them at the end. -/
theorem foldlM_kept (hkept : ∀ {xs s a s'}, Kept xs s → step s a = .ok s' → Kept (xs ++ [a]) s')
    {xs : List α} {s s' : σ} (h : Kept [] s) (hok : xs.foldlM step s = .ok s') : Kept xs s' := by
  have hgo : ∀ {xs ys s}, Kept xs s → ys.foldlM step s = .ok s' → Kept (xs ++ ys) s' := by
    intro xs ys s h hok
    induction ys generalizing xs s with
    | nil =>
      obtain rfl := Except.ok.inj hok
      rwa [List.append_nil]
    | cons a ys ih =>
      rw [List.foldlM_cons, bind_eq_ok] at hok
      obtain ⟨s₁, hstep, hrest⟩ := hok
      have hall := ih (hkept h hstep) hrest
      rwa [List.append_assoc] at hall
  exact hgo h hok

/-- When each step is taken exactly if the entries are in order with the one that it reads, all steps
are taken exactly if all entries are in order. -/
theorem foldlM_ok_iff (hkept : ∀ {xs s a s'}, Kept xs s → step s a = .ok s' → Kept (xs ++ [a]) s')
    (hstart : ∀ {xs ys}, InOrder (xs ++ ys) → InOrder xs)
    (hstep : ∀ {xs s a}, Kept xs s → InOrder xs → ((∃ s', step s a = .ok s') ↔ InOrder (xs ++ [a])))
    {xs : List α} {s : σ} (h : Kept [] s) (hempty : InOrder []) :
    (∃ s', xs.foldlM step s = .ok s') ↔ InOrder xs := by
  have hgo : ∀ {xs ys s}, Kept xs s → InOrder xs →
      ((∃ s', ys.foldlM step s = .ok s') ↔ InOrder (xs ++ ys)) := by
    intro xs ys s h hxs
    induction ys generalizing xs s with
    | nil =>
      rw [List.append_nil]
      exact ⟨fun _ => hxs, fun _ => ⟨s, rfl⟩⟩
    | cons a ys ih =>
      rw [List.foldlM_cons, List.append_cons]
      cases hs : step s a with
      | error e =>
        -- the entries are out of order here already, whatever comes after
        have hout : ¬InOrder (xs ++ [a]) := by
          rw [← hstep h hxs, hs]
          exact nofun
        exact ⟨nofun, fun hall => absurd (hstart hall) hout⟩
      | ok s₁ => exact ih (hkept h hs) ((hstep h hxs).1 ⟨s₁, hs⟩)
  exact hgo h hempty

end Fold

section Elements

variable {f : α → Except ε β} {xs : List α} {ys : List β}

/-- What stands in the first list has what it is related to in the second. -/
theorem exists_related {R : α → β → Prop} {x : α} (h : List.Forall₂ R xs ys) (hx : x ∈ xs) :
    ∃ y ∈ ys, R x y := by
  obtain ⟨i, hi, rfl⟩ := List.mem_iff_getElem.1 hx
  have hi' : i < ys.length := h.length_eq ▸ hi
  exact ⟨ys[i], List.getElem_mem hi', h.get hi hi'⟩

/-- A list is worked through if each of its entries is. -/
theorem mapM_eq_ok : xs.mapM f = .ok ys ↔ List.Forall₂ (fun x y => f x = .ok y) xs ys := by
  induction xs generalizing ys with
  | nil =>
    rw [List.forall₂_nil_left_iff, List.mapM_nil]
    exact ⟨fun h => (Except.ok.inj h).symm, fun h => h ▸ rfl⟩
  | cons x xs ih =>
    rw [List.mapM_cons, bind_eq_ok, List.forall₂_cons_left_iff]
    refine exists_congr fun y => ?_
    rw [bind_eq_ok]
    constructor
    · rintro ⟨hy, zs, hzs, heq⟩
      exact ⟨zs, hy, ih.1 hzs, (Except.ok.inj heq).symm⟩
    · rintro ⟨zs, hy, hzs, rfl⟩
      exact ⟨hy, zs, ih.2 hzs, rfl⟩

/-- A list can be worked through if each of its entries can. -/
theorem isOk_mapM_iff : (∃ ys, xs.mapM f = .ok ys) ↔ ∀ x ∈ xs, ∃ y, f x = .ok y := by
  induction xs with
  | nil => exact ⟨fun _ => nofun, fun _ => ⟨[], rfl⟩⟩
  | cons x xs ih =>
    rw [List.forall_mem_cons, ← ih]
    simp only [mapM_eq_ok, List.forall₂_cons_left_iff]
    constructor
    · rintro ⟨_, y, ys, hy, hys, rfl⟩
      exact ⟨⟨y, hy⟩, ys, hys⟩
    · rintro ⟨⟨y, hy⟩, ys, hys⟩
      exact ⟨y :: ys, y, ys, hy, hys, rfl⟩

end Elements

end TieredState
