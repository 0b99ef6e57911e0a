import TieredState.Policy.InPlace

/-!
# Edits that change all or nothing

An edit that fails leaves whatever it has changed by then. It has changed nothing if all that may refuse
it comes before its first change. Whoever makes such edits one after another may report those that fail
and go on, as if they had never been made.

* `Edit.Atomic` — the edit changes nothing when it fails.
* `Edit.ReadOnly.bind_atomic`, `Edit.Atomic.bind` — questions first, then changes.
* `Edit.after`, `Edit.outcomes` — edits made one after another, whichever of them fail.
* `Edit.after_heeded` — those that fail might be left out.
-/

namespace TieredState.Edit

variable {σ ε α β δ : Type} {e : Edit σ ε α} {f : α → Edit σ ε β} {s s' : σ}

/-- The edit changes nothing, whether it fails or not. -/
def ReadOnly (e : Edit σ ε α) : Prop := ∀ s, (e.apply s).2 = s

/-- The edit does not fail. -/
def Total (e : Edit σ ε α) : Prop := ∀ s, ∃ a, (e.apply s).1 = .ok a

/-- The edit changes nothing when it fails. -/
def Atomic (e : Edit σ ε α) : Prop := ∀ s err s', e.apply s = (.error err, s') → s' = s

/-! ## One edit after another -/

/-- An edit goes on with what the one before it answers, on the state that this leaves. -/
theorem apply_bind_ok {a : α} (h : e.apply s = (.ok a, s')) :
    (e >>= f).apply s = (f a).apply s' := by
  show (match e.apply s with
    | (outcome, s₁) => (ExceptT.bindCont f outcome : StateM σ (Except ε β)) s₁) = _
  rw [h]
  rfl

/-- An edit that fails ends the edits that it stands before. -/
theorem apply_bind_error {err : ε} (h : e.apply s = (.error err, s')) :
    (e >>= f).apply s = (.error err, s') := by
  show (match e.apply s with
    | (outcome, s₁) => (ExceptT.bindCont f outcome : StateM σ (Except ε β)) s₁) = _
  rw [h]
  rfl

/-- A question that is refused ends the edit, on the state as it is. -/
theorem apply_ask_bind {question : σ → Except ε α} : (ask question >>= f).apply s =
    match question s with
    | .ok a => (f a).apply s
    | .error err => (.error err, s) := by
  cases hq : question s with
  | ok a => exact apply_bind_ok (Prod.ext hq rfl)
  | error err => exact apply_bind_error (Prod.ext hq rfl)

/-- A condition that holds ends the edit, on the state as it is. -/
theorem apply_refuseIf_bind {condition : σ → Bool} {err : ε} {f : Unit → Edit σ ε β} :
    (refuseIf condition err >>= f).apply s =
      if condition s then (.error err, s) else (f ()).apply s := by
  unfold refuseIf
  rw [apply_ask_bind]
  cases condition s <;> rfl

/-! ## Questions and changes -/

/-- A question changes nothing. -/
theorem ask_readOnly (question : σ → Except ε α) : (ask question).ReadOnly := fun _ => rfl

/-- A refusal changes nothing. -/
theorem refuseIf_readOnly (condition : σ → Bool) (err : ε) : (refuseIf condition err).ReadOnly :=
  ask_readOnly _

/-- An answer that is given at once is no failure. -/
theorem pure_total (a : α) : (pure a : Edit σ ε α).Total := fun _ => ⟨a, rfl⟩

/-- A change does not fail. -/
theorem change_total (g : σ → σ) : (change g : Edit σ ε Unit).Total := fun _ => ⟨(), rfl⟩

/-- An edit that does not fail need not take back anything. -/
theorem Total.atomic (h : e.Total) : e.Atomic := by
  intro s err s' happly
  obtain ⟨a, ha⟩ := h s
  rw [happly] at ha
  cases ha

/-- Edits that do not fail do not do so one after another. -/
theorem Total.bind (h : e.Total) (hf : ∀ a, (f a).Total) : (e >>= f).Total := by
  intro s
  obtain ⟨a, ha⟩ := h s
  rw [apply_bind_ok (Prod.ext ha rfl)]
  exact hf a _

/-- What has only asked may still be refused. -/
theorem ReadOnly.bind_atomic (h : e.ReadOnly) (hf : ∀ a, (f a).Atomic) : (e >>= f).Atomic := by
  intro s err s' happly
  cases hfirst : e.apply s with
  | mk outcome s₁ =>
    obtain rfl : s₁ = s := by
      have hsame := h s
      rwa [hfirst] at hsame
    cases outcome with
    | error err₁ =>
      rw [apply_bind_error hfirst] at happly
      exact (Prod.mk.inj happly).2.symm
    | ok a =>
      rw [apply_bind_ok hfirst] at happly
      exact hf a s₁ err s' happly

/-- What has made a change must not be refused any more. -/
theorem Atomic.bind (h : e.Atomic) (hf : ∀ a, (f a).Total) : (e >>= f).Atomic := by
  intro s err s' happly
  cases hfirst : e.apply s with
  | mk outcome s₁ =>
    cases outcome with
    | error err₁ =>
      rw [apply_bind_error hfirst] at happly
      exact (Prod.mk.inj happly).2 ▸ h s err₁ s₁ hfirst
    | ok a =>
      rw [apply_bind_ok hfirst] at happly
      obtain ⟨b, hb⟩ := hf a s₁
      rw [happly] at hb
      cases hb

/-! ## Edits of a caller that goes on -/

/-- The state after edits that are made one after another, whichever of them fail. -/
def after (call : δ → Edit σ ε α) (s : σ) (ds : List δ) : σ :=
  ds.foldl (fun s d => ((call d).apply s).2) s

/-- What comes of edits that are made one after another, whichever of them fail. -/
def outcomes (call : δ → Edit σ ε α) (s : σ) : List δ → List (δ × Except ε α)
  | [] => []
  | d :: ds => (d, ((call d).apply s).1) :: outcomes call ((call d).apply s).2 ds

/-- The edits that did not fail. -/
def heeded (log : List (δ × Except ε α)) : List δ := (log.filter (·.2.isOk)).map (·.1)

variable {call : δ → Edit σ ε α} {d : δ} {ds : List δ}

/-- The latest edit is heeded if it did not fail. -/
theorem heeded_concat {log : List (δ × Except ε α)} {outcome : Except ε α} :
    heeded (log ++ [(d, outcome)]) = heeded log ++ if outcome.isOk then [d] else [] := by
  unfold heeded
  rw [List.filter_append, List.map_append]
  cases outcome <;> rfl

/-- An edit that changes nothing when it fails, at a state: it is made, or the state is as before. -/
theorem Atomic.cases (h : e.Atomic) (s : σ) :
    (∃ a s', e.apply s = (.ok a, s')) ∨ ∃ err, e.apply s = (.error err, s) := by
  cases happly : e.apply s with
  | mk outcome s' =>
    cases outcome with
    | ok a => exact .inl ⟨a, s', rfl⟩
    | error err => exact .inr ⟨err, by rw [h s err s' happly]⟩

/-- What each edit keeps of the edits so far and of what came of them, they keep together. -/
theorem kept_of_edits (Kept : σ → List (δ × Except ε α) → Prop)
    (hkept : ∀ {s log} d, Kept s log →
      Kept ((call d).apply s).2 (log ++ [(d, ((call d).apply s).1)]))
    (ds : List δ) {log : List (δ × Except ε α)} (h : Kept s log) :
    Kept (after call s ds) (log ++ outcomes call s ds) := by
  induction ds generalizing s log with
  | nil => exact (List.append_nil log).symm ▸ h
  | cons d ds ih =>
    have hall := ih (hkept d h)
    rw [List.append_assoc] at hall
    exact hall

/-- Edits that fail might be left out: the others do the same without them, and lead to the same
state. -/
theorem after_heeded (h : ∀ d, (call d).Atomic) (s : σ) (ds : List δ) :
    after call s (heeded (outcomes call s ds)) = after call s ds ∧
      outcomes call s (heeded (outcomes call s ds)) =
        (outcomes call s ds).filter (·.2.isOk) := by
  induction ds generalizing s with
  | nil => exact ⟨rfl, rfl⟩
  | cons d ds ih =>
    -- an edit that fails leaves the state it found, so the others go on from there either way
    rcases (h d).cases s with ⟨a, s', hok⟩ | ⟨err, herror⟩
    · have hlog : outcomes call s (d :: ds) = (d, .ok a) :: outcomes call s' ds := by
        rw [outcomes, hok]
      have hnext : after call s (d :: ds) = after call s' ds := by
        rw [after, List.foldl_cons, hok]
        rfl
      obtain ⟨hafter, houtcomes⟩ := ih s'
      rw [hlog, hnext]
      refine ⟨?_, ?_⟩
      · show after call ((call d).apply s).2 (heeded (outcomes call s' ds)) = _
        rw [hok, hafter]
      · show (d, ((call d).apply s).1) :: outcomes call ((call d).apply s).2 _ = _
        rw [hok]
        exact congrArg _ houtcomes
    · have hlog : outcomes call s (d :: ds) = (d, .error err) :: outcomes call s ds := by
        rw [outcomes, herror]
      have hnext : after call s (d :: ds) = after call s ds := by
        rw [after, List.foldl_cons, herror]
        rfl
      rw [hlog, hnext]
      exact ih s

end TieredState.Edit
