import TieredState.Proofs.Run

/-!
# Runs with their past

Some properties of a point of a run are about what led to it: what a thread was last bound to, which
hooks were called so far. `Trace allowed m₀ past m` says that `m₀` comes to `m` by allowed steps, and
that these were taken at the machines `past`, the latest first.

* `Trace.run` — a trace is a run.
* `History.of_run` — the trace of a script that is run.
-/

namespace TieredState.Machine

/-- The machine `m₀` comes to a machine by allowed steps, taken at the machines listed, the latest
first. -/
inductive Trace (allowed : Machine → Bool) (m₀ : Machine) : List Machine → Machine → Prop
  | start : Trace allowed m₀ [] m₀
  | step {past : List Machine} {m : Machine} (htrace : Trace allowed m₀ past m)
    (hallowed : allowed m = true) : Trace allowed m₀ (m :: past) m.step
  | redirect {past : List Machine} {m : Machine} (htrace : Trace allowed m₀ past m)
    (steps : List Step) : Trace allowed m₀ past (m.redirect steps)

variable {allowed : Machine → Bool} {m₀ m : Machine} {past : List Machine}

/-- A run with its past is a run. -/
theorem Trace.run (h : Trace allowed m₀ past m) : Run allowed m₀ m := by
  induction h with
  | start => exact .refl
  | step _ hallowed ih => exact ih.step hallowed
  | redirect _ steps ih => exact ih.redirect steps

/-- Every run leaves a trace. -/
theorem Run.trace (h : Run allowed m₀ m) : ∃ past, Trace allowed m₀ past m := by
  induction h with
  | refl => exact ⟨[], .start⟩
  | step _ hallowed ih =>
    obtain ⟨past, htrace⟩ := ih
    exact ⟨_, htrace.step hallowed⟩
  | redirect _ steps ih =>
    obtain ⟨past, htrace⟩ := ih
    exact ⟨past, htrace.redirect steps⟩

/-- A trace stays one when more is allowed. -/
theorem Trace.mono {allowed' : Machine → Bool} (h : Trace allowed m₀ past m)
    (hmore : ∀ m, allowed m = true → allowed' m = true) : Trace allowed' m₀ past m := by
  induction h with
  | start => exact .start
  | step _ hallowed ih => exact ih.step (hmore _ hallowed)
  | redirect _ steps ih => exact ih.redirect steps

/-- The machines at which a script takes its next `n` steps, after those at the machines `past`. -/
def trail : Nat → Machine → List Machine → List Machine
  | 0, _, past => past
  | n + 1, m, past => if m.isFinished then past else trail n m.step (m :: past)

/-- Running a script leaves a trace. -/
theorem Trace.of_run {n : Nat} (htrace : Trace allowed m₀ past m)
    (h : allows allowed n m = true) : Trace allowed m₀ (trail n m past) (m.run n) := by
  induction n generalizing m past with
  | zero => exact htrace
  | succ n ih =>
    unfold Machine.run trail
    split
    · exact htrace
    · next hgoes =>
      unfold allows at h
      simp only [hgoes, Bool.false_or, Bool.and_eq_true] at h
      exact ih (htrace.step h.1) h.2

/-- A program comes to the machine by allowed steps, taken at the machines `past`. -/
def History (allowed : Machine → Bool) (past : List Machine) (m : Machine) : Prop :=
  ∃ files environment fieldCount script,
    Trace allowed (start files environment fieldCount script) past m

/-- What has a past can be reached. -/
theorem History.reachable (h : History allowed past m) : Reachable allowed m := by
  obtain ⟨files, environment, fieldCount, script, htrace⟩ := h
  exact ⟨files, environment, fieldCount, script, htrace.run⟩

/-- What can be reached has a past. -/
theorem Reachable.history (h : Reachable allowed m) : ∃ past, History allowed past m := by
  obtain ⟨files, environment, fieldCount, script, hrun⟩ := h
  obtain ⟨past, htrace⟩ := hrun.trace
  exact ⟨past, files, environment, fieldCount, script, htrace⟩

/-- A past of allowed steps is one where more are allowed. -/
theorem History.mono {allowed' : Machine → Bool} (h : History allowed past m)
    (hmore : ∀ m, allowed m = true → allowed' m = true) : History allowed' past m := by
  obtain ⟨files, environment, fieldCount, script, htrace⟩ := h
  exact ⟨files, environment, fieldCount, script, htrace.mono hmore⟩

/-- The steps of a program are its past, if they are allowed. -/
theorem History.of_run {files : FileTree} {environment : Variables} {fieldCount : Nat}
    {script : List Step} {n : Nat}
    (h : allows allowed n (start files environment fieldCount script) = true) :
    History allowed (trail n (start files environment fieldCount script) [])
      ((start files environment fieldCount script).run n) :=
  ⟨files, environment, fieldCount, script, .of_run .start h⟩

end TieredState.Machine
