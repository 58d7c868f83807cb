import Mathlib

/-!
# Runs of a deterministic machine

A machine is a step function `σ → α → σ`; what happens is a list of actions, and
the state after it is a left fold.  `Along ok` says that a condition on the state
before each step and the action taken holds at every step of a run.  The
induction that carries an invariant along a run is done here once.

## Main definitions

* `Machine.run step s as`: the state after the actions `as`.
* `Machine.Along step ok s as`: `ok` holds at every step of that run.
* `Machine.run_invariant`: an invariant kept by the admitted steps holds at the end.
* `Machine.run_simulation`: the same for a relation between two machines.
-/

namespace Machine

variable {σ α : Type*}

/-- The state after a list of actions. -/
def run (step : σ → α → σ) (s : σ) (as : List α) : σ := as.foldl step s

@[simp] theorem run_nil (step : σ → α → σ) (s : σ) : run step s [] = s := rfl
@[simp] theorem run_cons (step : σ → α → σ) (s : σ) (a : α) (as : List α) :
    run step s (a :: as) = run step (step s a) as := rfl
@[simp] theorem run_append (step : σ → α → σ) (s : σ) (as bs : List α) :
    run step s (as ++ bs) = run step (run step s as) bs := List.foldl_append ..

/-- A condition on the state before a step and on its action, at every step. -/
def Along (step : σ → α → σ) (ok : σ → α → Prop) : σ → List α → Prop
  | _, [] => True
  | s, a :: as => ok s a ∧ Along step ok (step s a) as

@[simp] theorem along_nil (step : σ → α → σ) (ok : σ → α → Prop) (s : σ) :
    Along step ok s [] := trivial
@[simp] theorem along_cons (step : σ → α → σ) (ok : σ → α → Prop) (s : σ) (a : α)
    (as : List α) : Along step ok s (a :: as) ↔ ok s a ∧ Along step ok (step s a) as :=
  Iff.rfl

theorem along_append (step : σ → α → σ) (ok : σ → α → Prop) (s : σ) (as bs : List α) :
    Along step ok s (as ++ bs) ↔
      Along step ok s as ∧ Along step ok (run step s as) bs := by
  induction as generalizing s with
  | nil => simp
  | cons a as ih => simp [ih, and_assoc]

variable {step : σ → α → σ} {ok : σ → α → Prop} {s : σ} {as : List α}

theorem Along.and {ok' : σ → α → Prop} (h : Along step ok s as) (h' : Along step ok' s as) :
    Along step (fun s a => ok s a ∧ ok' s a) s as := by
  induction as generalizing s with
  | nil => trivial
  | cons a as ih => exact ⟨⟨h.1, h'.1⟩, ih h.2 h'.2⟩

theorem Along.mono {ok' : σ → α → Prop} (himp : ∀ s a, ok s a → ok' s a) (h : Along step ok s as) :
    Along step ok' s as := by
  induction as generalizing s with
  | nil => trivial
  | cons a as ih => exact ⟨himp s a h.1, ih h.2⟩

/-- Conditions that agree in the states an invariant allows agree along a run that keeps it. -/
theorem along_congr {A B : σ → α → Prop} (P : σ → Prop) (hstep : ∀ s a, P s → ok s a → P (step s a))
    (hiff : ∀ s a, P s → ok s a → (A s a ↔ B s a)) (hs : P s) (hok : Along step ok s as) :
    Along step A s as ↔ Along step B s as := by
  induction as generalizing s with
  | nil => exact Iff.rfl
  | cons a as ih =>
      rw [along_cons, along_cons, hiff s a hs hok.1, ih (hstep s a hs hok.1) hok.2]

instance decidableAlong (step : σ → α → σ) (ok : σ → α → Prop)
    [∀ s a, Decidable (ok s a)] : ∀ s as, Decidable (Along step ok s as)
  | _, [] => isTrue trivial
  | s, a :: as => @instDecidableAnd _ _ _ (decidableAlong step ok (step s a) as)

/-- **Invariants along a run.**  What every admitted step keeps holds in the
state the run ends in. -/
theorem run_invariant (I : σ → Prop) (hstep : ∀ s a, I s → ok s a → I (step s a)) (h0 : I s)
    (hok : Along step ok s as) : I (run step s as) := by
  induction as generalizing s with
  | nil => exact h0
  | cons a as ih => exact ih (hstep s a h0 hok.1) hok.2

/-- An invariant that every step keeps needs no condition on the run. -/
theorem run_invariant_of_step (I : σ → Prop) (hstep : ∀ s a, I s → I (step s a)) (h0 : I s)
    (as : List α) : I (run step s as) := by
  induction as generalizing s with
  | nil => exact h0
  | cons a as ih => exact ih (hstep s a h0)

/-- **Simulation.**  What every admitted step of two machines keeps relates the states their runs
end in. -/
theorem run_simulation {τ : Type*} {step' : τ → α → τ} (R : σ → τ → Prop)
    (hstep : ∀ s t a, R s t → ok s a → R (step s a) (step' t a)) {t : τ} (h0 : R s t)
    (hok : Along step ok s as) : R (run step s as) (run step' t as) := by
  induction as generalizing s t with
  | nil => exact h0
  | cons a as ih => exact ih (hstep s t a h0 hok.1) hok.2

/-- Actions that change nothing where they happen can be left out. -/
theorem run_filter (p : α → Bool) (h : Along step (fun s a => p a = false → step s a = s) s as) :
    run step s (as.filter p) = run step s as := by
  induction as generalizing s with
  | nil => rfl
  | cons a as ih =>
      obtain ⟨hskip, hrest⟩ := h
      cases hp : p a with
      | true =>
          rw [List.filter_cons_of_pos hp, run_cons, run_cons]
          exact ih hrest
      | false =>
          rw [List.filter_cons_of_neg (by simp [hp]), run_cons, hskip hp]
          rw [hskip hp] at hrest
          exact ih hrest

end Machine
