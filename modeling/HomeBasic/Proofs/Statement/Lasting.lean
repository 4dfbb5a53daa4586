import HomeBasic.Proofs.Expression.Lasting
import HomeBasic.Proofs.Statement.Parallel

/-!
# What lasts while a statement is read

A statement looks for its word once, and then no more. What survives passing over codes and
noting the cursor is left alone by all that follows the word. Only an `IF` leads on to
another statement, and not at the end of the line.

Main statements: `keepsScanner_afterWord`, `exists_of_another`.
-/

namespace HomeBasic
namespace Statement

open Attempt (Sustains)
open Desk (KeepsScanner keepsScanner_pure keepsScanner_throw keepsScanner_advance
  keepsScanner_expect keepsScanner_expectEnd keepsScanner_look keepsScanner_skip)
open Expression (keepsScanner_evaluate keepsScanner_evaluateNumber keepsScanner_subscript)

variable {H α : Type} {holds : Scanner → Prop} (inline : Scanner.Inline holds)

/-! ## Operands -/

theorem keepsScanner_guard {condition : Prop} [Decidable condition] {fault : Fault}
    {rest : PUnit → Attempt (Desk H) α} (otherwise : KeepsScanner holds (rest ⟨⟩)) :
    KeepsScanner holds (if condition then throw fault >>= rest else rest ⟨⟩) :=
  Attempt.sustains_guard fun _ => otherwise

theorem keepsScanner_turnsLeft : KeepsScanner holds (turnsLeft : Attempt (Desk H) Nat) :=
  Desk.keepsScanner_of_same fun _ => rfl

include inline

theorem keepsScanner_variableName :
    KeepsScanner holds (variableName : Attempt (Desk H) (Name × NameUse)) :=
  (keepsScanner_look inline).bind fun _ _ => keepsScanner_guard <|
    Desk.keepsScanner_readName.bind fun _ _ => keepsScanner_guard (keepsScanner_pure _)

theorem keepsScanner_numberTarget :
    KeepsScanner holds (numberTarget : Attempt (Desk H) Name) :=
  (keepsScanner_variableName inline).bind fun _ _ =>
    (keepsScanner_skip inline _).bind fun _ _ => keepsScanner_guard <|
      (keepsScanner_look inline).bind fun _ _ => keepsScanner_pure _

theorem keepsScanner_readWord (code : Code) :
    KeepsScanner holds (readWord code : Attempt (Desk H) StatementWord) := by
  unfold readWord
  split
  · exact (keepsScanner_advance inline).bind fun _ _ => keepsScanner_pure _
  · split
    · exact keepsScanner_pure _
    · exact keepsScanner_throw _

variable [Console H] (environment : Environment) (mode : Mode)

omit inline [Console H] in
theorem keepsScanner_printing (step : Attempt H Unit) :
    KeepsScanner holds (printing mode step : Attempt (Desk H) Unit) := by
  cases mode with
  | check => exact keepsScanner_pure ()
  | execute => exact Desk.keepsScanner_consulting step

theorem keepsScanner_numberPair :
    KeepsScanner holds (numberPair environment mode : Attempt (Desk H) (Int × Int)) :=
  (keepsScanner_evaluateNumber inline environment mode).bind fun _ _ =>
    (keepsScanner_expect inline _).bind fun _ _ =>
      (keepsScanner_evaluateNumber inline environment mode).bind fun _ _ => keepsScanner_pure _

/-- Behind the name of a place to assign to there may be a subscript. -/
theorem keepsScanner_afterName (name : Name) (use : NameUse) :
    KeepsScanner holds
      (do
        let target ← match use with
          | .number => pure (Target.number name)
          | .text => do
              Desk.skip 1
              pure (Target.text name)
          | .array => do
              pure (Target.element name (← Expression.subscript (expression environment mode)))
          | .textFunction => throw .syntaxError
        let _ ← (Desk.look : Attempt (Desk H) Code)
        return target) := by
  have ends (target : Target) : KeepsScanner holds
      (do
        let _ ← (Desk.look : Attempt (Desk H) Code)
        return target) :=
    (keepsScanner_look inline).bind fun _ _ => keepsScanner_pure target
  cases use with
  | number => exact (keepsScanner_pure _).bind fun _ _ => ends _
  | text =>
      exact (keepsScanner_skip inline 1).bind fun _ _ =>
        (keepsScanner_pure _).bind fun _ _ => ends _
  | array =>
      exact (keepsScanner_subscript inline (keepsScanner_evaluate inline environment mode)).bind
        fun _ _ => (keepsScanner_pure _).bind fun _ _ => ends _
  | textFunction => exact (keepsScanner_throw _).bind fun target (_ : True) => ends target

theorem keepsScanner_target :
    KeepsScanner holds (target environment mode : Attempt (Desk H) Target) :=
  (keepsScanner_variableName inline).bind fun (name, use) _ =>
    (keepsScanner_skip inline _).bind fun _ _ =>
      keepsScanner_afterName inline environment mode name use

theorem keepsScanner_operand (operands : Operands) (operandClass : OperandClass) :
    KeepsScanner holds
      (operand environment mode operands operandClass : Attempt (Desk H) Operands) := by
  cases operandClass with
  | nothing | ownForm => exact keepsScanner_pure operands
  | literal code => exact (keepsScanner_expect inline code).bind fun _ _ => keepsScanner_pure _
  | target =>
      exact (keepsScanner_target inline environment mode).bind fun _ _ => keepsScanner_pure _
  | numberTarget => exact (keepsScanner_numberTarget inline).bind fun _ _ => keepsScanner_pure _
  | matching =>
      exact (keepsScanner_evaluate inline environment mode).bind fun _ _ =>
        keepsScanner_guard (keepsScanner_pure _)
  | number =>
      exact (keepsScanner_evaluateNumber inline environment mode).bind fun _ _ =>
        keepsScanner_pure _
  | optionalNumber =>
      refine (keepsScanner_look inline).bind fun code _ => ?_
      split
      · exact keepsScanner_pure operands
      · exact (keepsScanner_evaluateNumber inline environment mode).bind fun _ _ =>
          keepsScanner_pure _

theorem keepsScanner_operands (operands : Operands) (classes : List OperandClass) :
    KeepsScanner holds
      (classes.foldlM (operand environment mode) operands : Attempt (Desk H) Operands) := by
  induction classes generalizing operands with
  | nil => exact keepsScanner_pure operands
  | cons operandClass classes inductionHypothesis =>
      rw [List.foldlM_cons]
      exact (keepsScanner_operand inline environment mode operands operandClass).bind
        fun operands _ => inductionHypothesis operands

/-! ## Forms of their own -/

omit [Console H] in
/-- Behind an item there is a separator, or the line ends. -/
theorem keepsScanner_itemEnd :
    KeepsScanner holds
      (do
        let next ← (Desk.look : Attempt (Desk H) Code)
        if next ≠ Code.semicolon ∧ next ≠ Code.comma ∧ next ≠ Code.newline then
          throw .syntaxError) := by
  refine (keepsScanner_look inline).bind fun next _ => ?_
  split
  · exact keepsScanner_throw _
  · exact keepsScanner_pure _

theorem keepsScanner_printItem (code : Code) :
    KeepsScanner holds (printItem environment mode code : Attempt (Desk H) Unit) := by
  have ends : KeepsScanner holds _ := @keepsScanner_itemEnd H _ inline
  unfold printItem
  split
  · exact (keepsScanner_advance inline).bind fun _ _ =>
      (keepsScanner_numberPair inline environment mode).bind fun _ _ =>
        (keepsScanner_printing mode _).bind fun _ _ => ends
  · split
    · exact (keepsScanner_advance inline).bind fun _ _ =>
        (keepsScanner_evaluateNumber inline environment mode).bind fun _ _ =>
          (keepsScanner_printing mode _).bind fun _ _ => ends
    · exact (keepsScanner_evaluate inline environment mode).bind fun _ _ =>
        (keepsScanner_printing mode _).bind fun _ _ => ends

theorem keepsScanner_printItems (turns : Nat) (newline : Bool) :
    KeepsScanner holds (printItems environment mode turns newline : Attempt (Desk H) Unit) := by
  induction turns generalizing newline with
  | zero => exact keepsScanner_throw .syntaxError
  | succ turns inductionHypothesis =>
      refine (keepsScanner_look inline).bind fun code _ => ?_
      split
      · split
        · exact keepsScanner_printing mode _
        · exact keepsScanner_pure ()
      · split
        · exact (keepsScanner_advance inline).bind fun _ _ => inductionHypothesis false
        · split
          · exact (keepsScanner_advance inline).bind fun _ _ =>
              (keepsScanner_printing mode _).bind fun _ _ => inductionHypothesis false
          · exact (keepsScanner_printItem inline environment mode code).bind fun _ _ =>
              inductionHypothesis true

theorem keepsScanner_dataItems (turns : Nat) :
    KeepsScanner holds (dataItems environment mode turns : Attempt (Desk H) Unit) := by
  induction turns with
  | zero => exact keepsScanner_throw .syntaxError
  | succ turns inductionHypothesis =>
      refine (keepsScanner_evaluate inline environment mode).bind fun _ _ =>
        (keepsScanner_look inline).bind fun code _ => ?_
      split
      · exact (keepsScanner_advance inline).bind fun _ _ => inductionHypothesis
      · exact keepsScanner_expectEnd inline

theorem keepsScanner_loopForm :
    KeepsScanner holds (loopForm environment mode : Attempt (Desk H) Command) :=
  have number := @keepsScanner_evaluateNumber H _ inline _ environment mode
  (keepsScanner_numberTarget inline).bind fun _ _ => (keepsScanner_expect inline _).bind
    fun _ _ => number.bind fun _ _ => (keepsScanner_expect inline _).bind fun _ _ =>
      number.bind fun _ _ => (keepsScanner_expectEnd inline).bind fun _ _ => keepsScanner_pure _

theorem keepsScanner_dimensionForm :
    KeepsScanner holds (dimensionForm environment mode : Attempt (Desk H) Command) :=
  (keepsScanner_variableName inline).bind fun _ _ => keepsScanner_guard <|
    (keepsScanner_skip inline _).bind fun _ _ =>
      (keepsScanner_subscript inline (keepsScanner_evaluate inline environment mode)).bind
        fun _ _ => (keepsScanner_expectEnd inline).bind fun _ _ => keepsScanner_pure _

theorem keepsScanner_ownForm (operands : Operands) (word : StatementWord) :
    KeepsScanner holds
      (ownForm environment mode operands word : Attempt (Desk H) Outcome) := by
  cases word
  case «if» =>
    exact (keepsScanner_look inline).bind fun _ _ => keepsScanner_guard (keepsScanner_pure _)
  case print =>
    exact keepsScanner_turnsLeft.bind fun turns _ =>
      (keepsScanner_printItems inline environment mode turns true).bind fun _ _ =>
        keepsScanner_pure _
  case «for» =>
    exact (keepsScanner_loopForm inline environment mode).bind fun _ _ => keepsScanner_pure _
  case rem => exact (Desk.keepsScanner_skipToEnd inline).bind fun _ _ => keepsScanner_pure _
  case dim =>
    exact (keepsScanner_dimensionForm inline environment mode).bind fun _ _ => keepsScanner_pure _
  case data =>
    cases mode with
    | execute => exact (Desk.keepsScanner_skipToEnd inline).bind fun _ _ => keepsScanner_pure _
    | check =>
        exact keepsScanner_turnsLeft.bind fun turns _ =>
          (keepsScanner_dataItems inline environment .check turns).bind fun _ _ =>
            keepsScanner_pure _
  case poke | beep =>
    exact (keepsScanner_numberPair inline environment mode).bind fun _ _ =>
      (keepsScanner_expectEnd inline).bind fun _ _ => keepsScanner_pure _
  all_goals exact keepsScanner_throw _

/-- What follows the operands of a word: a form of its own, or the end of the line. -/
theorem keepsScanner_afterOperands (word : StatementWord) (operands : Operands) :
    KeepsScanner holds
      (do
        if word.operandClasses.contains .ownForm then
          ownForm environment mode operands word
        else
          Desk.expectEnd
          match operands.command? word with
          | some command => return .act command
          | none => throw .syntaxError : Attempt (Desk H) Outcome) := by
  split
  · exact keepsScanner_ownForm inline environment mode operands word
  · refine (keepsScanner_expectEnd inline).bind fun _ _ => ?_
    cases operands.command? word with
    | some command => exact keepsScanner_pure _
    | none => exact keepsScanner_throw _

theorem keepsScanner_afterWord (word : StatementWord) :
    KeepsScanner holds (afterWord environment mode word : Attempt (Desk H) Outcome) :=
  (keepsScanner_operands inline environment mode _ _).bind fun operands _ =>
    keepsScanner_afterOperands inline environment mode word operands

/-! ## Another statement on the line -/

omit inline

/-- Of the forms of their own only that of `IF` leads on to another statement. -/
theorem not_another_ownForm {word : StatementWord} (noBranch : word ≠ .if) (operands : Operands) :
    Sustains (fun _ : Desk H => True) (ownForm environment mode operands word) (· ≠ .another) := by
  have done {α : Type} (step : Attempt (Desk H) α) {outcome : α → Outcome}
      (other : ∀ value, outcome value ≠ .another) :
      Sustains (fun _ : Desk H => True) (do return outcome (← step)) (· ≠ .another) :=
    (Attempt.sustains_true step).bind fun value _ => Attempt.sustains_pure (other value)
  cases word
  case «if» => exact absurd rfl noBranch
  case print => exact (Attempt.sustains_true _).bind fun _ _ => done _ nofun
  case «for» | rem | dim => exact done _ nofun
  case data =>
    cases mode with
    | execute => exact done _ nofun
    | check => exact (Attempt.sustains_true _).bind fun _ _ => done _ nofun
  case poke | beep => exact (Attempt.sustains_true _).bind fun _ _ => done _ nofun
  all_goals exact Attempt.sustains_throw _

theorem not_another_afterWord {word : StatementWord} (noBranch : word ≠ .if) :
    Sustains (fun _ : Desk H => True) (afterWord environment mode word) (· ≠ .another) := by
  refine (Attempt.sustains_true _).bind fun operands _ => ?_
  split
  · exact not_another_ownForm environment mode noBranch operands
  · refine (Attempt.sustains_true _).bind fun _ _ => ?_
    cases operands.command? word with
    | some command => exact Attempt.sustains_pure nofun
    | none => exact Attempt.sustains_throw _

/-- A statement that leads on to another one has looked at its place, and there is something. -/
theorem exists_of_another {desk reached : Desk H}
    (run : statement environment mode desk = (.ok .another, reached)) :
    ∃ passed : Scanner, reached.scanner = passed.look ∧ reached.scanner.current ≠ Code.newline := by
  rw [statement_apply] at run
  obtain ⟨code, looked, -, run⟩ := Attempt.exists_of_bind_eq_ok run
  split at run
  · cases run
  · obtain ⟨word, opened, -, run⟩ := Attempt.exists_of_bind_eq_ok run
    by_cases branch : word = .if
    · subst branch
      obtain ⟨operands, read, -, run⟩ := Attempt.exists_of_bind_eq_ok run
      rw [if_pos (by decide)] at run
      obtain ⟨code, last, look, run⟩ := Attempt.exists_of_bind_eq_ok run
      rw [Desk.look_apply] at look
      cases look
      dsimp only at run
      split at run
      · cases run
      next more =>
        obtain ⟨-, rfl⟩ := Prod.mk.inj run
        exact ⟨read.scanner, rfl, more⟩
    · have other := not_another_afterWord environment mode branch opened trivial
      rw [run] at other
      exact absurd rfl other.1

end Statement
end HomeBasic
