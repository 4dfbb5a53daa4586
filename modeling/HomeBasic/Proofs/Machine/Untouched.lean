import HomeBasic.Proofs.Machine.Frames
import HomeBasic.Proofs.Machine.Recall
import HomeBasic.Proofs.Machine.Typing

/-!
# What leaves the items of a program alone

A few commands change the program or move the `DATA` pointer. All others leave both
untouched, and so does whatever else a machine does in a step; of the keys only enter
changes the program, and none moves the pointer.

Main statements: this is so for steps (`untouched_advance`) and for keys
(`untouched_press`).
-/

namespace HomeBasic

open Attempt (Sustains)

namespace Machine

variable {H α : Type}

/-- Two machines of the same dimensions have the same program, with the pointer at the same
place of it. -/
structure Untouched (first second : Machine H) : Prop where
  config : second.config = first.config
  program : second.program = first.program
  data : second.data = first.data

variable {machine first second third : Machine H}

theorem Untouched.refl (machine : Machine H) : Untouched machine machine :=
  ⟨rfl, rfl, rfl⟩

theorem Untouched.trans (step : Untouched first second) (next : Untouched second third) :
    Untouched first third where
  config := next.config.trans step.config
  program := next.program.trans step.program
  data := next.data.trans step.data

/-- A step leaves program and pointer alone. -/
abbrev Bypasses (step : Attempt (Machine H) α) : Prop :=
  ∀ machine, Sustains (Untouched machine) step fun _ => True

theorem Bypasses.untouched {step : Attempt (Machine H) α} (bypasses : Bypasses step)
    (machine : Machine H) : Untouched machine (step machine).2 :=
  (bypasses machine).kept (.refl machine)

theorem Untouched.frame : InnerFrame (Untouched (H := H)) where
  refl := .refl
  trans := .trans
  console _ _ := ⟨rfl, rfl, rfl⟩
  memory _ _ := ⟨rfl, rfl, rfl⟩
  goto _ _ := ⟨rfl, rfl, rfl⟩
  loops _ _ _ := ⟨rfl, rfl, rfl⟩
  entry _ _ _ := ⟨rfl, rfl, rfl⟩
  pause _ _ _ := ⟨rfl, rfl, rfl⟩
  aside kept := ⟨kept.config, kept.program, kept.data⟩

variable [Console H]

theorem bypasses_perform {command : Command} (leaves : command.LeavesItems) :
    Bypasses (perform command : Attempt (Machine H) Unit) :=
  Untouched.frame.keeps_perform_of_not_forgets leaves.not_forgets
    (fun moves => absurd leaves moves) (fun _ _ => ⟨rfl, rfl, rfl⟩) fun _ _ => ⟨rfl, rfl, rfl⟩

/-! ## Steps -/

/-- The command that the next step carries out, if it carries out any, and the machine that
does so. -/
def order? (machine : Machine H) : Option (Command × Machine H) :=
  machine.turn?.bind fun turn =>
    match atDesk turn.scanner (Statement.line · .execute) turn.machine with
    | (.ok (some command), carrier) => some (command, carrier)
    | _ => none

theorem asked_eq (machine : Machine H) : machine.asked = machine.order?.map Prod.fst := by
  unfold asked order?
  cases machine.turn? with
  | none => rfl
  | some turn =>
      dsimp only [Option.bind_some]
      rcases atDesk turn.scanner (Statement.line · .execute) turn.machine with
        ⟨fault | _ | command, carrier⟩ <;> rfl

omit [Console H] in
theorem untouched_turn {turn : Turn H} (found : machine.turn? = some turn) :
    Untouched machine turn.machine := by
  obtain ⟨jump, line, same⟩ := exists_of_turn? found
  rw [same]
  exact ⟨rfl, rfl, rfl⟩

/-- The command is found by reading the line that is next, which changes only the console. -/
theorem exists_turn_of_order {command : Command} {carrier : Machine H}
    (order : machine.order? = some (command, carrier)) :
    ∃ turn console, machine.turn? = some turn ∧ carrier = { turn.machine with console } ∧
      machine.advance = proceed turn.inProgram (perform command carrier) := by
  obtain ⟨turn, found, order⟩ := Option.bind_eq_some_iff.mp order
  split at order
  next run =>
    cases order
    have advances : machine.advance = proceed turn.inProgram (perform command carrier) := by
      rw [advance_eq_proceed found, carryOut, Attempt.bind_apply, run]
    obtain ⟨-, rfl⟩ := Prod.mk.inj run
    exact ⟨turn, _, found, rfl, advances⟩
  next => cases order

/-- A step with a command carries it out, and then goes on. -/
theorem advance_of_order {command : Command} {carrier : Machine H}
    (order : machine.order? = some (command, carrier)) :
    Untouched machine carrier ∧
      ∃ inProgram, machine.advance = proceed inProgram (perform command carrier) := by
  obtain ⟨turn, console, found, rfl, advances⟩ := exists_turn_of_order order
  exact ⟨(untouched_turn found).trans ⟨rfl, rfl, rfl⟩, turn.inProgram, advances⟩

theorem untouched_of_order_eq_none (order : machine.order? = none) :
    Untouched machine machine.advance := by
  cases found : machine.turn? with
  | some turn =>
      have read := Untouched.frame.related
        (Untouched.frame.keeps_atDesk turn.scanner (Statement.line · .execute)) turn.machine
      have carried : Untouched turn.machine (carryOut turn.scanner turn.machine).2 := by
        unfold order? at order
        rw [found, Option.bind_some] at order
        rw [carryOut, Attempt.bind_apply]
        generalize atDesk turn.scanner (Statement.line · .execute) turn.machine = outcome
          at read order ⊢
        rcases outcome with ⟨fault | _ | command, changed⟩
        · exact read
        · exact read
        · cases order
      rw [advance_eq_proceed found]
      exact ((untouched_turn found).trans carried).trans (Untouched.frame.proceed _ _)
  | none => exact Untouched.frame.advance found

theorem untouched_advance
    (leaves : ∀ command, machine.asked = some command → command.LeavesItems) :
    Untouched machine machine.advance := by
  rw [asked_eq] at leaves
  cases order : machine.order? with
  | none => exact untouched_of_order_eq_none order
  | some found =>
      obtain ⟨command, carrier⟩ := found
      obtain ⟨before, inProgram, carried⟩ := advance_of_order order
      have performed := (bypasses_perform (leaves command (by rw [order]; rfl))).untouched carrier
      rw [carried]
      exact (before.trans performed).trans (Untouched.frame.proceed _ _)

/-! ## Keys -/

theorem untouched_press {key : Key} (other : key ≠ .enter) :
    Untouched machine (machine.press key).2 := by
  obtain ⟨-, edit, glyph, codes, pressed⟩ := exists_press machine other
  rw [pressed]
  exact ⟨rfl, rfl, rfl⟩

/-- Enter may change the program, but does not move the pointer. -/
theorem data_press_enter :
    (machine.press .enter).2.config = machine.config ∧
      (machine.press .enter).2.data = machine.data := by
  have submitted := machine.submitted
  generalize machine.press .enter = answer at submitted ⊢
  cases submitted with
  | blank =>
      obtain ⟨edit, glyph, console, blank, -⟩ := machine.exists_submitBlank
      rw [blank]
      exact ⟨rfl, rfl⟩
  | refused | direct | full | stored => exact ⟨rfl, rfl⟩

/-- Enter leaves the program as it is, or stores the line that is spelled. -/
theorem program_press_enter (oneLine : Code.newline ∉ machine.edit.text) :
    (machine.press .enter).2.program = machine.program ∨
      (machine.press .enter).1 = true ∧ (Line.ofCodes machine.edit.text).number ≠ 0 := by
  have submitted := machine.submitted
  generalize machine.press .enter = answer at submitted ⊢
  cases submitted with
  | blank =>
      obtain ⟨edit, glyph, console, blank, -⟩ := machine.exists_submitBlank
      rw [blank]
      exact .inl rfl
  | refused | direct | full => exact .inl rfl
  | stored some result =>
      exact .inr ⟨rfl, fun none => some ((number_of_result oneLine result).symm.trans none)⟩

end Machine
end HomeBasic
