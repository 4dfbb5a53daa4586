import HomeBasic.Attempt

/-!
# Repetition without a bound

A turn is taken again and again until it yields an outcome, with no bound to how often
(`Repeats`). So it is only said to come to an outcome if it ends. A recursion with a bounded
number of turns that takes up some measure in each of them is such a repetition, provided that
its bound is not below the measure: the bound does not show.

Main statements: a repetition comes to one outcome at most (`Repeats.unique`), and to that of a
bounded recursion that never runs out of turns (`Repeats.of_measure`,
`Attempt.repeats_of_measure`).
-/

namespace HomeBasic

/-- Taking turns from a state on comes to an outcome after finitely many of them. -/
inductive Repeats {σ α : Type} (turn : σ → σ ⊕ α) : σ → α → Prop
  | done {state : σ} {outcome : α} : turn state = .inr outcome → Repeats turn state outcome
  | again {state next : σ} {outcome : α} : turn state = .inl next → Repeats turn next outcome →
      Repeats turn state outcome

namespace Repeats

variable {σ α : Type} {turn : σ → σ ⊕ α} {state : σ} {outcome other : α}

theorem unique (first : Repeats turn state outcome) (second : Repeats turn state other) :
    other = outcome := by
  induction first with
  | done ended =>
      cases second with
      | done stopped => exact Sum.inr.inj (stopped.symm.trans ended)
      | again goesOn => exact nomatch goesOn.symm.trans ended
  | again goesOn _ inductionHypothesis =>
      cases second with
      | done stopped => exact nomatch stopped.symm.trans goesOn
      | again further rest =>
          obtain rfl := Sum.inl.inj (further.symm.trans goesOn)
          exact inductionHypothesis rest

/-- A recursion with as many turns as there are left of a measure is the repetition of its turn. -/
theorem of_measure (bounded : Nat → σ → α) (measure : σ → Nat)
    (zero : ∀ state, measure state = 0 → turn state = .inr (bounded 0 state))
    (succ : ∀ turns state, bounded (turns + 1) state = Sum.elim (bounded turns) id (turn state))
    (less : ∀ state next, turn state = .inl next → measure next < measure state)
    {turns : Nat} (state : σ) (enough : measure state ≤ turns) :
    Repeats turn state (bounded turns state) := by
  induction turns generalizing state with
  | zero => exact .done (zero state (Nat.le_zero.mp enough))
  | succ turns inductionHypothesis =>
      rw [succ]
      rcases taken : turn state with next | outcome
      · have fewer := Nat.lt_of_lt_of_le (less state next taken) enough
        exact .again taken (inductionHypothesis next (Nat.le_of_lt_succ fewer))
      · exact .done taken

end Repeats

namespace Attempt

variable {σ α β : Type}

/-- A step as a turn: it fails, it yields an outcome, or it is taken again with another start. -/
def turn (step : β → Attempt σ (β ⊕ α)) : β × σ → (β × σ) ⊕ (Except Fault α × σ) :=
  fun (start, state) =>
    match step start state with
    | (.ok (.inl next), reached) => .inl (next, reached)
    | (.ok (.inr value), reached) => .inr (.ok value, reached)
    | (.error fault, reached) => .inr (.error fault, reached)

section
variable {step : β → Attempt σ (β ⊕ α)} {start next : β} {state reached : σ}
  {outcome : Except Fault α × σ}

theorem repeats_next (taken : step start state = (.ok (.inl next), reached))
    (rest : Repeats (turn step) (next, reached) outcome) :
    Repeats (turn step) (start, state) outcome :=
  .again (by rw [turn, taken]) rest

theorem repeats_value {value : α} (taken : step start state = (.ok (.inr value), reached)) :
    Repeats (turn step) (start, state) (.ok value, reached) :=
  .done (by rw [turn, taken])

theorem repeats_fault {fault : Fault} (taken : step start state = (.error fault, reached)) :
    Repeats (turn step) (start, state) (.error fault, reached) :=
  .done (by rw [turn, taken])

end

/-- What follows a turn: more of them, or nothing. -/
def after (rest : β → Attempt σ α) : β ⊕ α → Attempt σ α
  | .inl next => rest next
  | .inr value => pure value

/-- A recursion with as many turns as there are left of a measure is the repetition of its turn. -/
theorem repeats_of_measure {step : β → Attempt σ (β ⊕ α)} (bounded : Nat → β → Attempt σ α)
    (measure : β → σ → Nat)
    (zero : ∀ start state, measure start state = 0 →
      turn step (start, state) = .inr (bounded 0 start state))
    (succ : ∀ turns start state, bounded (turns + 1) start state =
      (step start >>= after (bounded turns)) state)
    (less : ∀ start state next reached, step start state = (.ok (.inl next), reached) →
      measure next reached < measure start state)
    {turns : Nat} (start : β) (state : σ) (enough : measure start state ≤ turns) :
    Repeats (turn step) (start, state) (bounded turns start state) := by
  refine Repeats.of_measure (fun turns place => bounded turns place.1 place.2)
    (fun place => measure place.1 place.2) (fun place => zero place.1 place.2)
    (fun turns place => ?_) (fun place next taken => ?_) (start, state) enough
  · rw [succ, bind_apply, turn]
    rcases step place.1 place.2 with ⟨fault | next | value, reached⟩ <;> rfl
  · rw [turn] at taken
    rcases run : step place.1 place.2 with ⟨fault | further | value, reached⟩ <;>
      rw [run] at taken <;> cases taken
    exact less place.1 place.2 further reached run

end Attempt
end HomeBasic
