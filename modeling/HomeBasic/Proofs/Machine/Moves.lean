import HomeBasic.Machine.Editor
import Mathlib.Logic.Relation

/-!
# What happens to a machine

A machine that is editing takes keys, or its edit line is emptied for another one; on its
way through a line or a program it takes steps, up to where it is editing again. In between
its console changes by itself. Nothing is asked of the console, or of the dimensions of
the machine.

Main statements: settling and typing are made of such moves (`moves_settle`,
`Reached.type`).
-/

namespace HomeBasic
namespace Machine

open Relation (ReflTransGen)

variable {H : Type} [Console H] {typable : Key → Prop} {config : Config} {machine : Machine H}

/-- What may happen to a machine: a key is typed while it is editing, it takes a step, its
edit line is emptied, or its console changes by itself. -/
inductive Move (typable : Key → Prop) : Machine H → Machine H → Prop
  | press {machine : Machine H} {key : Key} (editing : machine.phase = .editing)
      (may : typable key) : Move typable machine (machine.press key).2
  | advance {machine : Machine H} : Move typable machine machine.advance
  | retype {machine : Machine H} (editing : machine.phase = .editing) :
      Move typable machine { machine with edit := machine.edit.clear }
  | outside {machine : Machine H} (console : H) : Move typable machine { machine with console }

/-- A machine that came about from a start. -/
def Reached (typable : Key → Prop) (config : Config) (machine : Machine H) : Prop :=
  ∃ console, ReflTransGen (Move typable) (start config console) machine

theorem Reached.start (typable : Key → Prop) (config : Config) (console : H) :
    Reached typable config (Machine.start config console) :=
  ⟨console, .refl⟩

theorem Reached.move {changed : Machine H} (reached : Reached typable config machine)
    (move : Move typable machine changed) : Reached typable config changed :=
  let ⟨console, moves⟩ := reached
  ⟨console, moves.tail move⟩

/-- What holds at a start and survives every move holds of every machine that came about. -/
theorem Reached.of_moves {holds : Machine H → Prop} (reached : Reached typable config machine)
    (starts : ∀ console, holds (Machine.start config console))
    (moves : ∀ machine changed, holds machine → Move typable machine changed → holds changed) :
    holds machine := by
  obtain ⟨console, steps⟩ := reached
  induction steps with
  | refl => exact starts console
  | tail _ last inductionHypothesis => exact moves _ _ inductionHypothesis last

/-! ## Settling -/

theorem settle_of_editing (editing : machine.phase = .editing) (steps : Nat) :
    machine.settle steps = machine := by
  cases steps with
  | zero => rfl
  | succ steps =>
      unfold settle
      rw [editing]

/-- What survives every step survives settling. -/
theorem settle_of_advance {holds : Machine H → Prop}
    (advance : ∀ machine, holds machine → machine.phase ≠ .editing → holds machine.advance)
    (steps : Nat) (start : holds machine) : holds (machine.settle steps) := by
  induction steps generalizing machine with
  | zero => exact start
  | succ steps inductionHypothesis =>
      unfold settle
      split
      · exact start
      next busy => exact inductionHypothesis (advance machine start busy)

theorem Reached.settle (reached : Reached typable config machine) (steps : Nat) :
    Reached typable config (machine.settle steps) :=
  settle_of_advance (fun _ reached _ => reached.move .advance) steps reached

/-- A key that is typed leads from one machine that came about to another. -/
theorem Reached.type (reached : Reached typable config machine) {key : Key}
    (editing : machine.phase = .editing) (may : typable key) (steps : Nat) :
    Reached typable config (machine.type steps key).2 :=
  (reached.move (.press editing may)).settle steps

end Machine
end HomeBasic
