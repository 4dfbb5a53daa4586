import HomeBasic.Proofs.Desk.Level
import HomeBasic.Proofs.Expression.Mirrored
import HomeBasic.Proofs.Statement.Parallel

/-!
# Lines that do the same

A line is read at two desks that are level, in the same mode. If values come to the same on
both sides, and so does what is printed (`Alike`), then the readings come to the same result,
they stop at the same place when they fail, and the consoles still belong together.

A check asks for no variable and for nothing of the console. So for a check the environments may
differ in all but the dimensions of the machine, and the consoles in everything, also in kind
(`alike_check`).

Main statement: this is so for whole lines (`level_line`).
-/

namespace HomeBasic
namespace Statement

open Attempt (Mirrored mirrored_guard mirrored_pure mirrored_throw)
open Desk (Level)

variable {H K : Type} [Console H] [Console K] {same : Prop} {meet : H → K → Prop}
  {first second : Environment}

/-- Two ways of reading a line for which values and consoles come to the same. -/
structure Alike {H K : Type} [Console H] [Console K] (meet : H → K → Prop)
    (first second : Environment) (mode : Mode) : Prop
    extends Expression.Alike meet first second mode where
  prints : ∀ printed : Printed,
    Mirrored meet (spoken mode (printed.print first.config.width))
      (spoken mode (printed.print first.config.width)) meet

theorem alike_check (config : second.config = first.config) :
    Alike meet first second .check where
  config := config
  fetched _ _ use := by cases use <;> rfl
  reply function _ := mirrored_pure function.placeholder
  fold pending value := by
    obtain ⟨waiting, _, _⟩ := pending
    cases waiting <;> cases value <;> rfl
  prints _ := mirrored_pure ()

/-! ## Operands -/

section
variable {mode : Mode} (alike : Alike meet first second mode)
include alike

theorem level_expression :
    Mirrored (Level same meet) (expression first mode) (expression second mode)
      (Level same meet) := by
  unfold expression Expression.evaluate
  rw [alike.config]
  exact Desk.level_of_twins fun course =>
    Expression.mirrored_evaluateWithin alike.toAlike _

theorem level_number :
    Mirrored (Level same meet) (number first mode) (number second mode)
      (Level same meet) := by
  refine (level_expression alike).bind fun value => ?_
  cases value with
  | number value => exact mirrored_pure value
  | text codes => exact mirrored_throw .syntaxError

theorem level_numberPair :
    Mirrored (Level same meet) (numberPair first mode) (numberPair second mode)
      (Level same meet) :=
  (level_number alike).bind fun left => (Desk.level_expect _).bind fun _ =>
    (level_number alike).bind fun right => mirrored_pure (left, right)

theorem level_subscript :
    Mirrored (Level same meet) (Expression.subscript (expression first mode))
      (Expression.subscript (expression second mode)) (Level same meet) :=
  (Desk.level_expect _).bind fun _ => (level_number alike).bind fun index =>
    (Desk.level_expect _).bind fun _ => mirrored_pure index

omit [Console H] [Console K] alike in
theorem level_variableName :
    Mirrored (Level same meet) (variableName : Attempt (Desk H) (Name × NameUse))
      (variableName : Attempt (Desk K) (Name × NameUse)) (Level same meet) := by
  refine Desk.level_look.bind fun code => mirrored_guard ?_
  refine Desk.level_readName.bind fun named => ?_
  exact mirrored_guard (mirrored_pure _)

omit [Console H] [Console K] alike in
theorem level_numberTarget :
    Mirrored (Level same meet) (numberTarget : Attempt (Desk H) Name)
      (numberTarget : Attempt (Desk K) Name) (Level same meet) :=
  level_variableName.bind fun named => (Desk.level_skip _).bind fun _ =>
    mirrored_guard (Desk.level_look.bind fun _ => mirrored_pure named.1)

theorem level_target :
    Mirrored (Level same meet) (target first mode) (target second mode)
      (Level same meet) := by
  refine level_variableName.bind fun (name, use) => (Desk.level_skip _).bind fun _ => ?_
  have found (target : Target) : Mirrored (Level same meet)
      (do let _ ← (Desk.look : Attempt (Desk H) Code); return target)
      (do let _ ← (Desk.look : Attempt (Desk K) Code); return target) (Level same meet) :=
    Desk.level_look.bind fun _ => mirrored_pure target
  cases use with
  | number => exact (mirrored_pure _).bind found
  | text => exact (Desk.level_skip 1).bind fun _ => (mirrored_pure _).bind found
  | array => exact (level_subscript alike).bind fun _ => (mirrored_pure _).bind found
  | textFunction => exact (mirrored_throw _).bind found

theorem level_operand (operands : Operands) (operandClass : OperandClass) :
    Mirrored (Level same meet) (operand first mode operands operandClass)
      (operand second mode operands operandClass) (Level same meet) := by
  cases operandClass with
  | nothing | ownForm => exact mirrored_pure operands
  | literal code => exact (Desk.level_expect code).bind fun _ => mirrored_pure operands
  | target => exact (level_target alike).bind fun _ => mirrored_pure _
  | numberTarget => exact level_numberTarget.bind fun _ => mirrored_pure _
  | matching => exact (level_expression alike).bind fun _ => mirrored_guard (mirrored_pure _)
  | number => exact (level_number alike).bind fun _ => mirrored_pure _
  | optionalNumber =>
      refine Desk.level_look.bind fun code => ?_
      split
      · exact mirrored_pure operands
      · exact (level_number alike).bind fun _ => mirrored_pure _

theorem level_operands (operands : Operands) (classes : List OperandClass) :
    Mirrored (Level same meet) (classes.foldlM (operand first mode) operands)
      (classes.foldlM (operand second mode) operands) (Level same meet) := by
  induction classes generalizing operands with
  | nil => exact mirrored_pure operands
  | cons operandClass classes inductionHypothesis =>
      rw [List.foldlM_cons, List.foldlM_cons]
      exact (level_operand alike operands operandClass).bind inductionHypothesis

/-! ## Forms of their own -/

theorem level_printing (printed : Printed) :
    Mirrored (Level same meet) (printing mode (printed.print first.config.width))
      (printing mode (printed.print second.config.width)) (Level same meet) := by
  rw [printing_eq, printing_eq, alike.config]
  intro desk opposite level
  have told := alike.prints printed desk.console opposite.console level.console
  simp only [Desk.consulting, Attempt.within_apply]
  exact ⟨told.1, level.scanner, level.calculator, told.2⟩

theorem level_printItem (code : Code) :
    Mirrored (Level same meet) (printItem first mode code) (printItem second mode code)
      (Level same meet) := by
  have ends : Mirrored (Level same meet)
      (do
        let next ← (Desk.look : Attempt (Desk H) Code)
        if next ≠ Code.semicolon ∧ next ≠ Code.comma ∧ next ≠ Code.newline then
          throw .syntaxError)
      (do
        let next ← (Desk.look : Attempt (Desk K) Code)
        if next ≠ Code.semicolon ∧ next ≠ Code.comma ∧ next ≠ Code.newline then
          throw .syntaxError)
      (Level same meet) := by
    refine Desk.level_look.bind fun next => ?_
    split
    · exact mirrored_throw _
    · exact mirrored_pure _
  unfold printItem
  split
  · exact Desk.level_advance.bind fun _ => (level_numberPair alike).bind fun (row, column) =>
      (level_printing alike (.place row column)).bind fun _ => ends
  · split
    · exact Desk.level_advance.bind fun _ => (level_number alike).bind fun column =>
        (level_printing alike (.tab column)).bind fun _ => ends
    · exact (level_expression alike).bind fun value =>
        (level_printing alike (.value value)).bind fun _ => ends

theorem level_printItems (turns : Nat) (newline : Bool) :
    Mirrored (Level same meet) (printItems first mode turns newline)
      (printItems second mode turns newline) (Level same meet) := by
  induction turns generalizing newline with
  | zero => exact mirrored_throw .syntaxError
  | succ turns inductionHypothesis =>
      refine Desk.level_look.bind fun code => ?_
      split
      · split
        · exact level_printing alike .newline
        · exact mirrored_pure ()
      · split
        · exact Desk.level_advance.bind fun _ => inductionHypothesis false
        · split
          · exact Desk.level_advance.bind fun _ => (level_printing alike .comma).bind fun _ =>
              inductionHypothesis false
          · exact (level_printItem alike code).bind fun _ => inductionHypothesis true

theorem level_dataItems (turns : Nat) :
    Mirrored (Level same meet) (dataItems first mode turns) (dataItems second mode turns)
      (Level same meet) := by
  induction turns with
  | zero => exact mirrored_throw .syntaxError
  | succ turns inductionHypothesis =>
      refine (level_expression alike).bind fun _ => Desk.level_look.bind fun code => ?_
      split
      · exact Desk.level_advance.bind fun _ => inductionHypothesis
      · exact Desk.level_expectEnd

theorem level_loopForm :
    Mirrored (Level same meet) (loopForm first mode) (loopForm second mode)
      (Level same meet) :=
  level_numberTarget.bind fun _ => (Desk.level_expect _).bind fun _ =>
    (level_number alike).bind fun _ => (Desk.level_expect _).bind fun _ =>
      (level_number alike).bind fun _ => Desk.level_expectEnd.bind fun _ => mirrored_pure _

theorem level_dimensionForm :
    Mirrored (Level same meet) (dimensionForm first mode) (dimensionForm second mode)
      (Level same meet) :=
  level_variableName.bind fun _ => mirrored_guard <| (Desk.level_skip _).bind fun _ =>
    (level_subscript alike).bind fun _ => Desk.level_expectEnd.bind fun _ => mirrored_pure _

omit [Console H] [Console K] alike in
theorem level_turnsLeft :
    Mirrored (Level same meet) (turnsLeft : Attempt (Desk H) Nat)
      (turnsLeft : Attempt (Desk K) Nat) (Level same meet) :=
  fun _ _ level => ⟨by
    simp only [turnsLeft, Attempt.bind_apply, Attempt.get_apply, Attempt.pure_apply]
    rw [level.scanner.rest], level⟩

theorem level_ownForm (operands : Operands) (word : StatementWord) :
    Mirrored (Level same meet) (ownForm first mode operands word)
      (ownForm second mode operands word) (Level same meet) := by
  cases word
  case «if» => exact Desk.level_look.bind fun _ => mirrored_guard (mirrored_pure _)
  case print =>
    exact level_turnsLeft.bind fun turns => (level_printItems alike turns true).bind fun _ =>
      mirrored_pure _
  case «for» => exact (level_loopForm alike).bind fun _ => mirrored_pure _
  case rem => exact Desk.level_skipToEnd.bind fun _ => mirrored_pure _
  case dim => exact (level_dimensionForm alike).bind fun _ => mirrored_pure _
  case data =>
    cases mode with
    | check =>
        exact level_turnsLeft.bind fun turns => (level_dataItems alike turns).bind fun _ =>
          mirrored_pure _
    | execute => exact Desk.level_skipToEnd.bind fun _ => mirrored_pure _
  case poke | beep =>
    exact (level_numberPair alike).bind fun _ => Desk.level_expectEnd.bind fun _ =>
      mirrored_pure _
  all_goals exact mirrored_throw _

/-! ## Whole lines -/

omit [Console H] [Console K] alike in
theorem level_readWord (code : Code) :
    Mirrored (Level same meet) (readWord code : Attempt (Desk H) StatementWord)
      (readWord code : Attempt (Desk K) StatementWord) (Level same meet) := by
  unfold readWord
  split
  · exact Desk.level_advance.bind fun _ => mirrored_pure _
  · split
    · exact mirrored_pure _
    · exact mirrored_throw _

omit [Console H] [Console K] alike in
theorem level_lookForWord :
    Mirrored (Level same meet) (lookForWord : Attempt (Desk H) Code)
      (lookForWord : Attempt (Desk K) Code) (Level same meet) := by
  intro desk opposite level
  have looked := ((level.scanner.expecting true).look).expecting false
  rw [lookForWord_apply, lookForWord_apply]
  exact ⟨congrArg Except.ok looked.current, looked, level.calculator, level.console⟩

theorem level_afterWord (word : StatementWord) :
    Mirrored (Level same meet) (afterWord first mode word) (afterWord second mode word)
      (Level same meet) := by
  refine (level_operands alike _ _).bind fun operands => ?_
  split
  · exact level_ownForm alike operands word
  · refine Desk.level_expectEnd.bind fun _ => ?_
    cases operands.command? word with
    | some command => exact mirrored_pure _
    | none => exact mirrored_throw _

theorem level_statement :
    Mirrored (Level same meet) (statement first mode) (statement second mode)
      (Level same meet) := by
  intro desk opposite level
  rw [statement_apply, statement_apply]
  have cleared : Level same meet { desk with calculator := desk.calculator.clear }
      { opposite with calculator := opposite.calculator.clear } :=
    ⟨level.scanner, congrArg BoundedStack.clear level.calculator, level.console⟩
  refine level_lookForWord.bind (fun code => ?_) _ _ cleared
  split
  · exact mirrored_pure _
  · exact (level_readWord code).bind (level_afterWord alike)

theorem level_statements (turns : Nat) :
    Mirrored (Level same meet) (statements first mode turns) (statements second mode turns)
      (Level same meet) := by
  induction turns with
  | zero => exact mirrored_throw .syntaxError
  | succ turns inductionHypothesis =>
      refine (level_statement alike).bind fun outcome => ?_
      cases outcome with
      | done => exact mirrored_pure none
      | act command => exact mirrored_pure (some command)
      | another => exact inductionHypothesis

/-- Readings of one line at level desks do the same. -/
theorem level_line :
    Mirrored (Level same meet) (line first mode) (line second mode) (Level same meet) :=
  level_turnsLeft.bind (level_statements alike)

end

end Statement
end HomeBasic
