/-
# Computations with a state and errors

What a computation in `ExceptT ε (StateM σ)` returns and the state that it leaves, for sequences of
such computations: an error ends the sequence but keeps the state.
-/
import Mathlib.Control.Monad.Basic

namespace Stateful

variable {σ ε α β : Type}

/-- The result and the state after it. -/
def outcome (x : ExceptT ε (StateM σ) α) (s : σ) : Except ε α × σ := (ExceptT.run x).run s

variable {x : ExceptT ε (StateM σ) α} {f : α → ExceptT ε (StateM σ) β} {s s' s'' : σ} {a : α} {b : β}
  {err : ε}

@[simp] theorem outcome_pure (a : α) (s : σ) :
    outcome (pure a : ExceptT ε (StateM σ) α) s = (.ok a, s) := rfl

@[simp] theorem outcome_throw (err : ε) (s : σ) :
    outcome (throw err : ExceptT ε (StateM σ) α) s = (.error err, s) := rfl

@[simp] theorem outcome_get (s : σ) : outcome (get : ExceptT ε (StateM σ) σ) s = (.ok s, s) := rfl

@[simp] theorem outcome_modifyGet (g : σ → α × σ) (s : σ) :
    outcome (modifyGet g : ExceptT ε (StateM σ) α) s = (.ok (g s).1, (g s).2) := rfl

@[simp] theorem outcome_modify (g : σ → σ) (s : σ) :
    outcome (modify g : ExceptT ε (StateM σ) Unit) s = (.ok (), g s) := rfl

theorem outcome_bind_of_ok (h : outcome x s = (.ok a, s')) :
    outcome (x >>= f) s = outcome (f a) s' := by
  unfold outcome at h ⊢
  rw [ExceptT.run_bind, StateT.run_bind]
  rw [h]
  rfl

theorem outcome_bind_of_error (h : outcome x s = (.error err, s')) :
    outcome (x >>= f) s = (.error err, s') := by
  unfold outcome at h ⊢
  rw [ExceptT.run_bind, StateT.run_bind]
  rw [h]
  rfl

theorem outcome_tryCatch_of_ok {handler : ε → ExceptT ε (StateM σ) α}
    (h : outcome x s = (.ok a, s')) : outcome (tryCatch x handler) s = (.ok a, s') := by
  unfold outcome at h ⊢
  rw [ExceptT.run_tryCatch, StateT.run_bind, h]
  rfl

theorem outcome_tryCatch_of_error {handler : ε → ExceptT ε (StateM σ) α}
    (h : outcome x s = (.error err, s')) :
    outcome (tryCatch x handler) s = outcome (handler err) s' := by
  unfold outcome at h ⊢
  rw [ExceptT.run_tryCatch, StateT.run_bind, h]
  rfl

/-- A check that ends the computation. -/
def rejectWhen (p : Prop) [Decidable p] (err : ε) : ExceptT ε (StateM σ) Unit :=
  if p then throw err else pure ()

theorem outcome_rejectWhen_of_neg {p : Prop} [Decidable p] (h : ¬ p) (err : ε) (s : σ) :
    outcome (rejectWhen p err) s = (.ok (), s) := by
  rw [rejectWhen, if_neg h]
  rfl

theorem outcome_rejectWhen_of_pos {p : Prop} [Decidable p] (h : p) (err : ε) (s : σ) :
    outcome (rejectWhen p err) s = (.error err, s) := by
  rw [rejectWhen, if_pos h]
  rfl

theorem outcome_rejectWhen_eq_ok {p : Prop} [Decidable p] {u : Unit} :
    outcome (rejectWhen p err) s = (.ok u, s') ↔ ¬ p ∧ s' = s := by
  by_cases h : p
  · rw [outcome_rejectWhen_of_pos h]
    simp [h]
  · rw [outcome_rejectWhen_of_neg h]
    simp [h, eq_comm]

/-- **A sequence that succeeds** succeeds in each of its parts. -/
theorem outcome_bind_eq_ok :
    outcome (x >>= f) s = (.ok b, s'') ↔
      ∃ a s', outcome x s = (.ok a, s') ∧ outcome (f a) s' = (.ok b, s'') := by
  rcases hx : outcome x s with ⟨err | a, s'⟩
  · rw [outcome_bind_of_error hx]
    simp
  · rw [outcome_bind_of_ok hx]
    simp [and_assoc]

end Stateful
