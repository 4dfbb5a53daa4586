import HomeBasic.Attempt

/-!
# Steps that fail without a trace

A step keeps the state that it reached even where it fails. An atomic step fails before it
changes anything, so that a fault leaves the state as it was.

Main statements: steps that only look at the state may come before an atomic step
(`Looks.bind`), and steps that never fail after it (`Atomic.bind`).
-/

namespace HomeBasic
namespace Attempt

variable {σ whole part α β : Type}

/-- A step that fails leaves the state as it was. -/
def Atomic (step : Attempt σ α) : Prop :=
  ∀ state fault, (step state).1 = .error fault → (step state).2 = state

/-- A step changes nothing, however it ends. -/
def Looks (step : Attempt σ α) : Prop :=
  ∀ state, (step state).2 = state

/-- A step never fails. -/
def Total (step : Attempt σ α) : Prop :=
  ∀ state fault, (step state).1 ≠ .error fault

theorem looks_get : Looks (get : Attempt σ σ) :=
  fun _ => rfl

theorem looks_throw (fault : Fault) : Looks (throw fault : Attempt σ α) :=
  fun _ => rfl

theorem looks_ofExcept (result : Except Fault α) : Looks (ofExcept result : Attempt σ α) :=
  fun _ => rfl

theorem Looks.atomic {step : Attempt σ α} (looks : Looks step) : Atomic step :=
  fun state _ _ => looks state

theorem total_pure (value : α) : Total (pure value : Attempt σ α) := by
  intro state fault failed
  cases failed

theorem total_modify (change : σ → σ) : Total (modify change : Attempt σ PUnit) := by
  intro state fault failed
  cases failed

theorem Total.atomic {step : Attempt σ α} (total : Total step) : Atomic step :=
  fun state fault failed => absurd failed (total state fault)

theorem Total.bind {step : Attempt σ α} {next : α → Attempt σ β} (total : Total step)
    (rest : ∀ value, Total (next value)) : Total (step >>= next) := by
  intro state fault failed
  rw [bind_apply] at failed
  have first := total state
  generalize step state = outcome at first failed
  rcases outcome with ⟨other | value, reached⟩
  · exact first other rfl
  · exact rest value reached fault failed

/-- What is seen beforehand changes nothing about a step being atomic. -/
theorem Looks.bind {step : Attempt σ α} {next : α → Attempt σ β} (looks : Looks step)
    (rest : ∀ value, Atomic (next value)) : Atomic (step >>= next) := by
  intro state fault failed
  rw [bind_apply] at failed ⊢
  have same := looks state
  generalize step state = outcome at same failed ⊢
  rcases outcome with ⟨other | value, reached⟩
  · exact same
  · obtain rfl : reached = state := same
    exact rest value reached fault failed

/-- Nothing that comes behind an atomic step may fail. -/
theorem Atomic.bind {step : Attempt σ α} {next : α → Attempt σ β} (atomic : Atomic step)
    (rest : ∀ value, Total (next value)) : Atomic (step >>= next) := by
  intro state fault failed
  rw [bind_apply] at failed ⊢
  have kept := atomic state
  generalize step state = outcome at kept failed ⊢
  rcases outcome with ⟨other | value, reached⟩
  · exact kept other rfl
  · exact absurd failed (rest value reached fault)

theorem Atomic.within {get : whole → part} {set : part → whole → whole} {step : Attempt part α}
    (atomic : Atomic step) (same : ∀ state, set (get state) state = state) :
    Atomic (within get set step) := by
  intro state fault failed
  rw [within_apply] at failed ⊢
  change set (step (get state)).2 state = state
  rw [atomic (get state) fault failed, same]

end Attempt
end HomeBasic
