import HomeBasic.Proofs.Attempt.Rules

/-!
# Steps that do the same

Two steps mirror each other when from states that are alike they come to the same result,
be it a value or a fault, and to states that are alike again (`Mirrored`). In contrast to
`Related`, this also says how things stand after a fault.

Main statements: this is closed under one step after another (`Mirrored.bind`), also where it
matters how the steps ended (`Ends.bind`).
-/

namespace HomeBasic
namespace Attempt

variable {σ τ α β : Type} {before alike : σ → τ → Prop}

/-- Two steps came to the same result, and to states that are alike. -/
def Matches (alike : σ → τ → Prop) (outcome : Except Fault α × σ)
    (arrival : Except Fault α × τ) : Prop :=
  arrival.1 = outcome.1 ∧ alike outcome.2 arrival.2

/-- From states related by `before` two steps come to the same and leave states related
by `alike`. -/
def Mirrored (before : σ → τ → Prop) (left : Attempt σ α) (right : Attempt τ α)
    (alike : σ → τ → Prop) : Prop :=
  ∀ state other, before state other → Matches alike (left state) (right other)

/-- What comes after two steps need only match where the first of them ended well. -/
theorem Matches.bind {left : Attempt σ α} {right : Attempt τ α} {onLeft : α → Attempt σ β}
    {onRight : α → Attempt τ β} {state : σ} {other : τ}
    (first : Matches alike (left state) (right other))
    (rest : ∀ value reached arrived, left state = (.ok value, reached) → alike reached arrived →
      Matches alike (onLeft value reached) (onRight value arrived)) :
    Matches alike ((left >>= onLeft) state) ((right >>= onRight) other) := by
  rw [bind_apply, bind_apply]
  generalize left state = outcome at first rest ⊢
  generalize right other = arrival at first ⊢
  obtain ⟨same, alike⟩ := first
  rcases outcome with ⟨fault | value, changed⟩ <;> rcases arrival with ⟨other, moved⟩ <;>
    cases same
  · exact ⟨rfl, alike⟩
  · exact rest value changed moved rfl alike

theorem Mirrored.bind {left : Attempt σ α} {right : Attempt τ α} {onLeft : α → Attempt σ β}
    {onRight : α → Attempt τ β} (first : Mirrored before left right alike)
    (rest : ∀ value, Mirrored alike (onLeft value) (onRight value) alike) :
    Mirrored before (left >>= onLeft) (right >>= onRight) alike :=
  fun state other start => (first state other start).bind
    fun value reached arrived _ alike => rest value reached arrived alike

theorem Mirrored.narrow {narrower : σ → τ → Prop} {left : Attempt σ α} {right : Attempt τ α}
    (mirrored : Mirrored before left right alike)
    (narrows : ∀ state other, narrower state other → before state other) :
    Mirrored narrower left right alike :=
  fun state other start => mirrored state other (narrows state other start)

theorem mirrored_pure (value : α) :
    Mirrored alike (pure value : Attempt σ α) (pure value : Attempt τ α) alike :=
  fun _ _ start => ⟨rfl, start⟩

theorem mirrored_throw (fault : Fault) :
    Mirrored alike (throw fault : Attempt σ α) (throw fault : Attempt τ α) alike :=
  fun _ _ start => ⟨rfl, start⟩

theorem mirrored_ofExcept (result : Except Fault α) :
    Mirrored alike (ofExcept result : Attempt σ α) (ofExcept result : Attempt τ α) alike :=
  fun _ _ start => ⟨rfl, start⟩

/-- A condition that both sides have in common. -/
theorem mirrored_when {condition : Prop} [Decidable condition] {left : Attempt σ PUnit}
    {right : Attempt τ PUnit} {rest : PUnit → Attempt σ α} {others : PUnit → Attempt τ α}
    (first : Mirrored alike left right alike)
    (next : Mirrored alike (rest ⟨⟩) (others ⟨⟩) alike) :
    Mirrored alike (if condition then left >>= rest else rest ⟨⟩)
      (if condition then right >>= others else others ⟨⟩) alike := by
  split
  · exact first.bind fun _ => next
  · exact next

theorem mirrored_guard {condition : Prop} [Decidable condition] {fault : Fault}
    {rest : PUnit → Attempt σ α} {others : PUnit → Attempt τ α}
    (otherwise : Mirrored alike (rest ⟨⟩) (others ⟨⟩) alike) :
    Mirrored alike (if condition then throw fault >>= rest else rest ⟨⟩)
      (if condition then throw fault >>= others else others ⟨⟩) alike :=
  mirrored_when (mirrored_throw fault) otherwise

/-- Two steps came to the same result, and to states that belong together in one way after a
value and in another after a fault. -/
inductive Ends (after : α → σ → τ → Prop) (failed : σ → τ → Prop) :
    Except Fault α × σ → Except Fault α × τ → Prop
  | ok {value : α} {reached : σ} {arrived : τ} : after value reached arrived →
      Ends after failed (.ok value, reached) (.ok value, arrived)
  | error {fault : Fault} {reached : σ} {arrived : τ} : failed reached arrived →
      Ends after failed (.error fault, reached) (.error fault, arrived)

theorem Ends.bind {middle : α → σ → τ → Prop} {after : β → σ → τ → Prop} {failed : σ → τ → Prop}
    {left : Attempt σ α} {right : Attempt τ α} {onLeft : α → Attempt σ β}
    {onRight : α → Attempt τ β} {state : σ} {other : τ}
    (first : Ends middle failed (left state) (right other))
    (rest : ∀ value reached arrived, middle value reached arrived →
      Ends after failed (onLeft value reached) (onRight value arrived)) :
    Ends after failed ((left >>= onLeft) state) ((right >>= onRight) other) := by
  rw [bind_apply, bind_apply]
  generalize left state = outcome at first ⊢
  generalize right other = arrival at first ⊢
  cases first with
  | ok holds => exact rest _ _ _ holds
  | error failure => exact .error failure

theorem Ends.mono {after weaker : α → σ → τ → Prop} {failed looser : σ → τ → Prop}
    {outcome : Except Fault α × σ} {arrival : Except Fault α × τ}
    (ends : Ends after failed outcome arrival)
    (ok : ∀ value reached arrived, after value reached arrived → weaker value reached arrived)
    (error : ∀ reached arrived, failed reached arrived → looser reached arrived) :
    Ends weaker looser outcome arrival := by
  cases ends with
  | ok holds => exact .ok (ok _ _ _ holds)
  | error failure => exact .error (error _ _ failure)

theorem Matches.ends {after failed : σ → τ → Prop} {outcome : Except Fault α × σ}
    {arrival : Except Fault α × τ} (same : Matches alike outcome arrival)
    (ok : ∀ reached arrived, alike reached arrived → after reached arrived)
    (error : ∀ reached arrived, alike reached arrived → failed reached arrived) :
    Ends (fun _ => after) failed outcome arrival := by
  obtain ⟨result, alike⟩ := same
  rcases outcome with ⟨fault | value, reached⟩ <;> rcases arrival with ⟨other, arrived⟩ <;>
    cases result
  · exact .error (error _ _ alike)
  · exact .ok (ok _ _ alike)

/-- A step mirrors itself. -/
theorem mirrored_refl (step : Attempt σ α) : Mirrored Eq step step Eq := by
  rintro state _ rfl
  exact ⟨rfl, rfl⟩

end Attempt
end HomeBasic
