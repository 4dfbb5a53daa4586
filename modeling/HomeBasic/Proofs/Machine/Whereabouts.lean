import HomeBasic.Proofs.Line.Bounds
import HomeBasic.Proofs.Machine.Course
import HomeBasic.Proofs.Machine.Saving

/-!
# Where a machine is

A machine is at a line which a program may have, or at a direct one, and the cursor of its
edit line is within the text. No key, no step and no command leads it anywhere else.

Main statement: `Reachable.placed`.
-/

namespace HomeBasic

open Attempt (Sustains)

namespace Machine

variable {H α : Type} {config : Config} {savable : Nat → Prop} {holds : H → Prop}
  {machine changed : Machine H}

/-- The line is one that a program may have, or direct, and the cursor is within its text. -/
structure Placed (machine : Machine H) : Prop where
  line : machine.line ≤ Line.maxNumber
  edit : machine.edit.Placed

/-! ## The cursor -/

/-- A step leaves the cursor within the text. -/
abbrev KeepsCursor (step : Attempt (Machine H) α) : Prop :=
  Sustains (fun machine : Machine H => machine.edit.Placed) step fun _ => True

theorem placed_frame :
    InnerFrame fun first second : Machine H => first.edit.Placed → second.edit.Placed where
  refl _ placed := placed
  trans first second placed := second (first placed)
  console _ _ placed := placed
  memory _ _ placed := placed
  goto _ _ placed := placed
  loops _ _ _ placed := placed
  entry machine _ _ _ := machine.edit.placed_clear
  pause _ _ _ placed := placed
  aside kept := kept.cursor

theorem Keeps.keepsCursor {step : Attempt (Machine H) α}
    (keeps : Keeps (fun first second => first.edit.Placed → second.edit.Placed) step) :
    KeepsCursor step :=
  Attempt.sustains_of_kept fun machine => placed_frame.related keeps machine

variable [Console H]

/-- A command leaves the cursor where it is, or empties the edit line. -/
theorem keepsCursor_perform (command : Command) :
    KeepsCursor (perform command : Attempt (Machine H) Unit) := by
  refine Keeps.keepsCursor ?_
  by_cases forgets : command.Forgets
  · cases command with
    | run start =>
        exact (keeps_ofExcept _).bind fun _ => placed_frame.keeps_modify fun _ placed => placed
    | new | clear => exact placed_frame.keeps_modify fun _ placed => placed
    | load slot =>
        refine placed_frame.keeps_of_related fun machine placed => ?_
        change (load slot machine).2.edit.Placed
        rcases load_cases slot machine with ⟨image, console, -, run⟩ | ⟨-, fault, console, -, run⟩
        all_goals
          rw [run]
          exact placed
    | _ => exact forgets.elim
  · exact placed_frame.keeps_perform_of_not_forgets forgets (fun _ _ _ placed => placed)
      (fun _ _ placed => placed) fun _ _ placed => placed

/-! ## Steps -/

theorem keepsCursor_carryOut (scanner : Scanner) :
    KeepsCursor (carryOut scanner : Attempt (Machine H) Unit) := by
  have read : KeepsCursor (atDesk scanner (Statement.line · .execute) :
      Attempt (Machine H) (Option Command)) := (placed_frame.keeps_atDesk _ _).keepsCursor
  refine read.bind fun found _ => ?_
  cases found with
  | none => exact Attempt.sustains_pure trivial
  | some command => exact keepsCursor_perform command

omit [Console H] in
theorem edit_turn {turn : Turn H} (found : machine.turn? = some turn) :
    turn.machine.edit = machine.edit := by
  obtain ⟨jump, line, same⟩ := exists_of_turn? found
  rw [same]

theorem placed_advance (placed : machine.edit.Placed) : machine.advance.edit.Placed := by
  cases found : machine.turn? with
  | some turn =>
      rw [advance_eq_proceed found]
      rw [← edit_turn found] at placed
      exact placed_frame.proceed _ _ ((keepsCursor_carryOut turn.scanner).kept placed)
  | none => exact placed_frame.advance found placed

/-- A step leads to no line that no program has. -/
theorem line_advance_le (holds : ∃ lines, machine.program.Holds lines)
    (line : machine.line ≤ Line.maxNumber) : machine.advance.line ≤ Line.maxNumber := by
  obtain ⟨lines, holds⟩ := holds
  cases found : machine.turn? with
  | none =>
      rw [(SameCourse.frame.advance found).line]
      exact line
  | some turn =>
      rw [advance_eq_proceed found, (SameCourse.frame.proceed _ _).line, line_carryOut]
      rcases turn?_cases found with ⟨statement, -, rfl⟩ | ⟨-, -, rfl⟩
      · exact line
      · exact upcoming_le holds

/-! ## Keys -/

omit [Console H] in
theorem placed_recallLine (placed : machine.edit.Placed) (offset : Nat) :
    (machine.recallLine offset).edit.Placed := by
  unfold recallLine
  split
  · exact placed
  · exact EditLine.placed_setText _ _

theorem placed_submit (placed : machine.edit.Placed) : (machine.press .enter).2.edit.Placed := by
  have submitted := machine.submitted
  generalize machine.press .enter = answer at submitted ⊢
  cases submitted with
  | blank => exact placed_refreshEdit machine.edit.placed_clear
  | refused | full => exact placed_refreshEdit placed
  | direct => exact placed
  | stored => exact placed_refreshEdit (EditLine.placed_clear _)

theorem placed_press (placed : machine.edit.Placed) (key : Key) :
    (machine.press key).2.edit.Placed := by
  unfold press
  split
  · exact placed_submit placed
  · refine placed_refreshEdit ?_
    unfold recallPrevious
    split
    · exact placed_recallLine placed _
    · exact placed
  · exact placed_refreshEdit (placed_recallLine placed _)
  · exact placed_refreshEdit (placed.editKey _)

/-! ## From a start -/

theorem placed_start (config : Config) (console : H) : (start config console).Placed :=
  ⟨Nat.zero_le _, placed_refreshEdit (Nat.zero_le _)⟩

theorem Placed.press (placed : machine.Placed) (key : Key) : (machine.press key).2.Placed := by
  refine ⟨?_, placed_press placed.edit key⟩
  obtain ⟨-, -, -, ⟨-, line⟩ | ⟨-, line⟩⟩ := machine.press_eq key
  · rw [line]
    exact placed.line
  · rw [line]
    exact Nat.zero_le _

theorem Placed.step (placed : machine.Placed) (holds : ∃ lines, machine.program.Holds lines)
    {ready : H → Prop} (step : Step savable ready machine changed) : changed.Placed := by
  cases step with
  | press => exact placed.press _
  | advance => exact ⟨line_advance_le holds placed.line, placed_advance placed.edit⟩
  | retype => exact ⟨placed.line, machine.edit.placed_clear⟩
  | outside => exact ⟨placed.line, placed.edit⟩

/-- Whatever happens to a machine, it is at a line which a program may have, or at a direct
one, and the cursor is within the text. -/
theorem Reachable.placed {ready : H → Prop}
    (upheld : Console.Upheld config.word (fun _ => True) ready)
    (programRoom : 2 ≤ config.programSize) (variablesRoom : 1 ≤ config.variablesSize)
    (reachable : Reachable config ready machine) : machine.Placed := by
  obtain ⟨console, start, steps⟩ := reachable
  induction steps with
  | refl => exact placed_start config console
  | @tail middle _ before step inductionHypothesis =>
      have sound := Reachable.sound upheld programRoom variablesRoom ⟨console, start, before⟩
      exact inductionHypothesis.step sound.program.holds step

end Machine
end HomeBasic
