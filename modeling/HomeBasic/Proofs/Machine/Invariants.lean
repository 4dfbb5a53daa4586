import HomeBasic.Machine.Commands
import HomeBasic.Proofs.Attempt.Rules

/-!
# Invariants that do not see a store

Most of what a command does is done to the console or to the variables. What holds of a machine
whatever its console is survives a listing, a transfer and the news of one that failed, and what
holds whatever its variables are survives an assignment.

Main statements: `IgnoresConsole.save`, `IgnoresVariables.assign`.
-/

namespace HomeBasic
namespace Machine

open Attempt (Sustains)

variable {H α : Type} {holds : Machine H → Prop}

theorem sustains_slotNumber [Console H] (slot : Int) :
    Sustains holds (slotNumber slot : Attempt (Machine H) Nat)
      fun number => number = slot.toNat := by
  refine Attempt.sustains_get.bind fun machine _ => ?_
  split
  · exact Attempt.sustains_pure rfl
  · exact Attempt.sustains_throw _

/-! ## Whatever the console is -/

/-- What holds of a machine holds whatever its console is. -/
def IgnoresConsole (holds : Machine H → Prop) : Prop :=
  ∀ (machine : Machine H) (console : H), holds machine → holds { machine with console }

namespace IgnoresConsole

variable (ignores : IgnoresConsole holds)
include ignores

theorem onConsole (step : Attempt H α) :
    Sustains holds (onConsole step : Attempt (Machine H) α) fun _ => True :=
  Attempt.sustains_of_kept fun machine start => ignores machine _ start

theorem tellConsole (change : H → H) :
    Sustains holds (tellConsole change : Attempt (Machine H) Unit) fun _ => True :=
  Attempt.sustains_modify fun machine start => ignores machine _ start

theorem atDesk (scanner : Scanner) (step : Environment → Attempt (Desk H) α) :
    Sustains holds (atDesk scanner step) fun _ => True :=
  Attempt.sustains_of_kept fun machine start => ignores machine _ start

variable [Console H]

theorem list (start : Nat) :
    Sustains holds (list start : Attempt (Machine H) Unit) fun _ => True :=
  Attempt.sustains_get.bind fun _ _ => ignores.onConsole _

theorem transferFailed (fault : SlotFault) :
    Sustains holds (transferFailed fault : Attempt (Machine H) α) fun _ => True :=
  (ignores.tellConsole _).bind fun _ _ => Attempt.sustains_throw _

theorem save (slot : Int) :
    Sustains holds (save slot : Attempt (Machine H) Unit) fun _ => True := by
  refine (sustains_slotNumber slot).bind fun slot _ =>
    Attempt.sustains_get.bind fun machine _ => ?_
  split
  case' isTrue => refine (ignores.transferFailed _).bind fun _ _ => ?_
  all_goals
    refine (ignores.onConsole _).bind fun outcome _ => ?_
    cases outcome with
    | ok => exact Attempt.sustains_pure trivial
    | error fault => exact ignores.transferFailed fault

theorem fetchBlock (slot : Nat) :
    Sustains holds (fetchBlock slot : Attempt (Machine H) (Except SlotFault (List Code)))
      fun _ => True := by
  unfold Machine.fetchBlock
  split
  · exact Attempt.sustains_get.bind fun _ _ => Attempt.sustains_pure trivial
  · exact ignores.onConsole _

end IgnoresConsole

/-! ## Whatever the variables are -/

/-- What holds of a machine holds whatever its variables are. -/
def IgnoresVariables (holds : Machine H → Prop) : Prop :=
  ∀ (machine : Machine H) (variableStore : Variables), holds machine →
    holds { machine with variableStore }

namespace IgnoresVariables

variable (ignores : IgnoresVariables holds)
include ignores

theorem onVariables (step : Attempt Variables α) :
    Sustains holds (onVariables step : Attempt (Machine H) α) fun _ => True :=
  Attempt.sustains_of_kept fun machine start => ignores machine _ start

theorem assign (target : Target) (value : Value) :
    Sustains holds (assign target value : Attempt (Machine H) Unit) fun _ => True := by
  unfold Machine.assign
  split
  · exact ignores.onVariables _
  · exact ignores.onVariables _
  · exact ignores.onVariables _
  · exact Attempt.sustains_throw _

end IgnoresVariables

end Machine
end HomeBasic
