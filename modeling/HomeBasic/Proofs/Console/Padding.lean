import HomeBasic.Proofs.Attempt.Repeats
import HomeBasic.Proofs.Machine.Kindred
import HomeBasic.Proofs.Statement.Ends
import HomeBasic.Proofs.Statement.Marks

/-!
# Padding ends

Spaces are printed one by one until the print position is at a column. On a display with that
column every space brings the position nearer to it, or the display refuses it, so padding ends. It
would not on a display that is too narrow.

A recorder has its display, whatever it is used for (`Console.Used`), and carrying out a line is
to use the console, for it can do nothing else with it.

Main statements: padding to a column of the display ends (`repeats_padTo`), and what a line leaves
behind is a console in use (`used_carryOut`).
-/

namespace HomeBasic

open Attempt (Mirrored)
open Console (Kindred Ruled Used)

/-! ## Padding -/

namespace Printing

variable {H : Type} [Console H]

/-- A space is printed in front of a column. -/
def padTurn (goal : Nat) (_ : Unit) : Attempt H (Unit ⊕ Unit) := do
  if Console.column (← get) < goal then do
    code Code.space
    return .inl ()
  else
    return .inr ()

theorem padTurn_apply (goal : Nat) (console : H) :
    padTurn goal () console =
      if Console.column console < goal then
        match Console.print? Code.space console with
        | some changed => (.ok (.inl ()), changed)
        | none => (.error .displayFull, console)
      else
        (.ok (.inr ()), console) := by
  rw [padTurn, Attempt.bind_apply, Attempt.get_apply]
  dsimp only
  split
  · rw [Attempt.bind_apply, code, Attempt.orFault]
    cases Console.print? Code.space console <;> rfl
  · rfl

/-- In front of a column of the display there are only so many spaces. -/
theorem repeats_padTo {width : Nat} {sound : H → Prop} (ruled : Ruled width sound) {goal : Nat}
    (inside : goal < width) {console : H} (start : sound console) :
    Repeats (Attempt.turn (padTurn goal)) ((), console) (padTo goal console) := by
  change Repeats _ _ (spaces (goal - Console.column console) console)
  generalize missing : goal - Console.column console = count
  have taken := padTurn_apply goal console
  induction count generalizing console with
  | zero =>
      rw [if_neg (Nat.not_lt.mpr (Nat.le_of_sub_eq_zero missing))] at taken
      exact Attempt.repeats_value taken
  | succ count inductionHypothesis =>
      have before : Console.column console < goal := by omega
      rw [if_pos before] at taken
      rw [spaces, List.replicate_succ, codes, Attempt.bind_apply, code, Attempt.orFault]
      cases shown : Console.print? Code.space console with
      | none =>
          rw [shown] at taken
          exact Attempt.repeats_fault taken
      | some changed =>
          rw [shown] at taken
          obtain ⟨sound, column⟩ := ruled.print? _ _ _ start shown
          have next : Console.column changed = Console.column console + 1 := by
            rw [column, Nat.mod_eq_of_lt (by omega)]
          exact Attempt.repeats_next taken
            (inductionHypothesis sound (by omega) (padTurn_apply goal changed))

end Printing

/-! ## Consoles in use -/

theorem Recorder.screen_stopTone {S : Type} (recorder : Recorder S) :
    recorder.stopTone.screen = recorder.screen := by
  unfold Recorder.stopTone
  split <;> rfl

/-- A recorder keeps its display, whatever it is used for. -/
theorem Recorder.sound_of_used {S : Type} [SlotStore S] {width : Nat} {first reached : Recorder S}
    (sound : first.screen.Placed ∧ first.screen.width = width) (used : Used first reached) :
    reached.screen.Placed ∧ reached.screen.width = width := by
  have ruled := @Recorder.ruled S _ width
  induction used with
  | unused => exact sound
  | @nextKey console _ held =>
      cases keys : console.keys with
      | nil => simpa [Console.nextKey, keys] using held
      | cons key rest => simpa [Console.nextKey, keys] using held
  | print? code _ shown held => exact (ruled.print? _ _ _ held shown).1
  | newline? _ shown held => exact (ruled.newline? _ _ held shown).1
  | moveTo? row column _ shown held => exact (ruled.moveTo? _ _ _ _ held shown).1
  | clear _ held => exact ⟨held.1.clear, held.2⟩
  | @startTone console pitch _ held =>
      change console.stopTone.screen.Placed ∧ console.stopTone.screen.width = width
      rwa [screen_stopTone]
  | @stopTone console _ held =>
      change console.stopTone.screen.Placed ∧ console.stopTone.screen.width = width
      rwa [screen_stopTone]
  | breakHeld _ held | showEditLine _ _ held | showReport _ _ held | notice _ _ held
  | delay _ _ held | random _ _ held | read _ _ held | persist _ _ _ held => exact held

/-- A console in use is kindred to itself. -/
theorem Console.kindred_used {H : Type} [Console H] (first : H) :
    Kindred fun console other : H => other = console ∧ Used first console where
  slotCount := by
    rintro console _ ⟨rfl, used⟩
    rfl
  read := by
    rintro slot console _ ⟨rfl, used⟩
    exact ⟨rfl, rfl, used.read slot⟩
  persist := by
    rintro slot block console _ ⟨rfl, used⟩
    exact ⟨rfl, rfl, used.persist slot block⟩
  nextKey := by
    rintro console _ ⟨rfl, used⟩
    exact ⟨rfl, rfl, used.nextKey⟩
  breakHeld := by
    rintro console _ ⟨rfl, used⟩
    exact ⟨rfl, rfl, used.breakHeld⟩
  random := by
    rintro largest console _ ⟨rfl, used⟩
    exact ⟨rfl, rfl, used.random largest⟩
  column := by
    rintro console _ ⟨rfl, used⟩
    rfl
  clock := by
    rintro console _ ⟨rfl, used⟩
    rfl
  print? := by
    rintro code _ console ⟨rfl, used⟩
    cases shown : Console.print? code console with
    | none => exact .none
    | some changed => exact .some ⟨rfl, used.print? code shown⟩
  newline? := by
    rintro _ console ⟨rfl, used⟩
    cases shown : Console.newline? console with
    | none => exact .none
    | some changed => exact .some ⟨rfl, used.newline? shown⟩
  moveTo? := by
    rintro row column _ console ⟨rfl, used⟩
    cases shown : Console.moveTo? row column console with
    | none => exact .none
    | some changed => exact .some ⟨rfl, used.moveTo? row column shown⟩
  clear := by
    rintro console _ ⟨rfl, used⟩
    exact ⟨rfl, used.clear⟩
  showEditLine := by
    rintro codes console _ ⟨rfl, used⟩
    exact ⟨rfl, used.showEditLine codes⟩
  notice := by
    rintro message console _ ⟨rfl, used⟩
    exact ⟨rfl, used.notice message⟩
  delay := by
    rintro duration console _ ⟨rfl, used⟩
    exact ⟨rfl, used.delay duration⟩
  startTone := by
    rintro pitch console _ ⟨rfl, used⟩
    exact ⟨rfl, used.startTone pitch⟩
  stopTone := by
    rintro console _ ⟨rfl, used⟩
    exact ⟨rfl, used.stopTone⟩

/-! ## Lines at a console in use -/

section
variable {H α : Type} [Console H] {first : H}

/-- What does the same at level desks only uses the console. -/
theorem Desk.used_of_level {step : Attempt (Desk H) α}
    (mirrored : Mirrored
      (Level True fun console other : H => other = console ∧ Used first console) step step
      (Level True fun console other : H => other = console ∧ Used first console))
    {desk : Desk H} (used : Used first desk.console) : Used first (step desk).2.console :=
  (mirrored desk desk ⟨⟨rfl, rfl, fun _ => rfl⟩, rfl, rfl, used⟩).2.console.2

namespace Statement

variable (environment : Environment) {desk : Desk H} (used : Used first desk.console)
include used

theorem used_expression : Used first (expression environment .execute desk).2.console :=
  Desk.used_of_level (level_expression (alike_execute (Console.kindred_used first) environment))
    used

theorem used_statement : Used first (statement environment .execute desk).2.console :=
  Desk.used_of_level (level_statement (alike_execute (Console.kindred_used first) environment))
    used

theorem used_printTurn (newline : Bool) :
    Used first (printTurn environment .execute newline desk).2.console := by
  have alike := alike_execute (Console.kindred_used first) environment
  refine Desk.used_of_level (Desk.level_look.bind fun code => ?_) used
  split
  · split
    · exact (level_printing alike .newline).bind fun _ => Attempt.mirrored_pure _
    · exact Attempt.mirrored_pure _
  · split
    · exact Desk.level_advance.bind fun _ => Attempt.mirrored_pure _
    · split
      · exact Desk.level_advance.bind fun _ => (level_printing alike .comma).bind fun _ =>
          Attempt.mirrored_pure _
      · exact (level_printItem alike code).bind fun _ => Attempt.mirrored_pure _

end Statement

/-- Carrying out a line is to use the console. -/
theorem Machine.used_carryOut (scanner : Scanner) {machine : Machine H}
    (used : Used first machine.console) :
    Used first (carryOut scanner machine).2.console := by
  have same := mirrored_carryOut (Console.kindred_used first) scanner machine machine
    ⟨machine.console, rfl, rfl, used⟩
  obtain ⟨-, console, -, -, used⟩ := same
  exact used

end

end HomeBasic
