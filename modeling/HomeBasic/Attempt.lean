import HomeBasic.Fault

/-!
# Steps that may fail

A step changes a state and yields a value or a fault. The state that it reached
is kept in either case, so a fault undoes nothing.

Main statements: what a step does when it is applied to a state, one equation
for each way of building one (`bind_apply`, `pure_apply`, `throw_apply`, …).
-/

namespace HomeBasic

/-- A step that may fail. Whatever happens, the state it reached is kept. -/
abbrev Attempt (σ : Type) := ExceptT Fault (StateM σ)

namespace Attempt

variable {σ whole part α β : Type}

/-- Runs a step on a part of a larger state. -/
def within (get : whole → part) (set : part → whole → whole) (step : Attempt part α) :
    Attempt whole α := fun state =>
  let (result, changed) := step (get state)
  (result, set changed state)

/-- A step that cannot fail. -/
def ofUpdate (update : σ → α × σ) : Attempt σ α := fun state =>
  let (value, changed) := update state
  (.ok value, changed)

/-- A step that changes nothing. -/
def ofExcept (result : Except Fault α) : Attempt σ α := fun state =>
  (result, state)

/-- A step that a full place refuses with a fault. -/
def orFault (fault : Fault) (update : σ → Option σ) : Attempt σ Unit := fun state =>
  match update state with
  | some changed => (.ok (), changed)
  | none => (.error fault, state)

theorem bind_apply (step : Attempt σ α) (next : α → Attempt σ β) (state : σ) :
    (step >>= next) state =
      match step state with
      | (.ok value, reached) => next value reached
      | (.error fault, reached) => (.error fault, reached) := by
  change (ExceptT.bindCont next (step state).1) (step state).2 = _
  rcases step state with ⟨result, reached⟩
  cases result <;> rfl

@[simp] theorem pure_apply (value : α) (state : σ) :
    (pure value : Attempt σ α) state = (.ok value, state) := rfl

@[simp] theorem throw_apply (fault : Fault) (state : σ) :
    (throw fault : Attempt σ α) state = (.error fault, state) := rfl

@[simp] theorem get_apply (state : σ) : (get : Attempt σ σ) state = (.ok state, state) := rfl

@[simp] theorem set_apply (changed state : σ) :
    (set changed : Attempt σ PUnit) state = (.ok ⟨⟩, changed) := rfl

@[simp] theorem modify_apply (change : σ → σ) (state : σ) :
    (modify change : Attempt σ PUnit) state = (.ok ⟨⟩, change state) := rfl

@[simp] theorem ofExcept_apply (result : Except Fault α) (state : σ) :
    (ofExcept result : Attempt σ α) state = (result, state) := rfl

@[simp] theorem ofUpdate_apply (update : σ → α × σ) (state : σ) :
    (ofUpdate update) state = (.ok (update state).1, (update state).2) := rfl

@[simp] theorem within_apply (get : whole → part) (set : part → whole → whole)
    (step : Attempt part α) (state : whole) :
    (within get set step) state = ((step (get state)).1, set (step (get state)).2 state) := rfl

end Attempt
end HomeBasic
