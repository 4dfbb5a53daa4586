import HomeBasic.Proofs.Expression.Bounds
import HomeBasic.Statement

/-!
# Lines with everything checked

A line is read with the names cut out of the bytes that it stands in, with the expressions in it
checked, and with the column of a `TAB` taken modulo the width. On a display with a column at
least it is read as it is without the checks.

Main statement: `bounded_line`.
-/

namespace HomeBasic
namespace Statement

open Checked
open Desk (Bounded BoundedAt)
open Expression (checkedEvaluate checkedEvaluateNumber checkedSubscript bounded_evaluate
  bounded_evaluateNumber bounded_subscript)

variable {H : Type} [Console H] (bytes : List Code) (environment : Environment) (mode : Mode)

/-! ## With everything checked -/

/-- Reads two numbers with a comma between them. -/
def checkedNumberPair : Trial (Desk H) (Int × Int) := do
  let first ← checkedEvaluateNumber bytes environment mode
  Trial.ofAttempt (Desk.expect Code.comma)
  return (first, ← checkedEvaluateNumber bytes environment mode)

/-- Reads the name of a variable. The names of functions are refused. -/
def checkedVariableName : Trial (Desk H) (Name × NameUse) := do
  let code ← Trial.ofAttempt Desk.look
  if !code.isLetter then
    throw .syntaxError
  let (name, use) ← Desk.checkedReadName bytes
  if Function.isReserved name then
    throw .syntaxError
  return (name, use)

/-- Reads a number to assign to. -/
def checkedNumberTarget : Trial (Desk H) Name := do
  let (name, use) ← checkedVariableName bytes
  Trial.ofAttempt (Desk.skip name.length)
  if use ≠ .number then
    throw .syntaxError
  let _ ← Trial.ofAttempt Desk.look
  return name

/-- Reads a place to assign to. -/
def checkedTarget : Trial (Desk H) Target := do
  let (name, use) ← checkedVariableName bytes
  Trial.ofAttempt (Desk.skip name.length)
  let target ← match use with
    | .number => pure (Target.number name)
    | .text => do
        Trial.ofAttempt (Desk.skip 1)
        pure (Target.text name)
    | .array => do
        let index ← checkedSubscript (checkedEvaluate bytes environment mode)
        pure (Target.element name index)
    | .textFunction => throw .syntaxError
  let _ ← Trial.ofAttempt Desk.look
  return target

/-- Reads an operand of a class. -/
def checkedOperand (operands : Operands) : OperandClass → Trial (Desk H) Operands
  | .nothing | .ownForm => return operands
  | .literal code => do
      Trial.ofAttempt (Desk.expect code)
      return operands
  | .target => do
      return { operands with target := some (← checkedTarget bytes environment mode) }
  | .numberTarget => do
      return { operands with target := some (.number (← checkedNumberTarget bytes)) }
  | .matching => do
      let value ← checkedEvaluate bytes environment mode
      if operands.target.any (·.isText != value.isText) then
        throw .syntaxError
      return { operands with value := some value }
  | .number => do
      let number ← checkedEvaluateNumber bytes environment mode
      return { operands with value := some (.number number) }
  | .optionalNumber => do
      if (← Trial.ofAttempt (Desk.look : Attempt (Desk H) Code)) = Code.newline then
        return operands
      let number ← checkedEvaluateNumber bytes environment mode
      return { operands with value := some (.number number) }

/-- Goes to a column of the line, counted modulo the width, if the line is carried out. -/
def checkedTab (column : Int) : Trial (Desk H) Unit :=
  match mode with
  | .check => pure ()
  | .execute => do
      let _ ← remainder? column environment.config.width
      Trial.ofAttempt (Desk.consulting (Printing.tab environment.config.width column))

/-- Reads what a `PRINT` item says and prints it. -/
def checkedPrintItem (code : Code) : Trial (Desk H) Unit := do
  if code = Keyword.at.code then
    Trial.ofAttempt Desk.advance
    let (row, column) ← checkedNumberPair bytes environment mode
    Trial.ofAttempt (printing mode (Printing.moveTo row column))
  else if code = Keyword.tab.code then
    Trial.ofAttempt Desk.advance
    let column ← checkedEvaluateNumber bytes environment mode
    checkedTab environment mode column
  else
    let value ← checkedEvaluate bytes environment mode
    Trial.ofAttempt (printing mode (Printing.value value))
  let next ← Trial.ofAttempt Desk.look
  if next ≠ Code.semicolon ∧ next ≠ Code.comma ∧ next ≠ Code.newline then
    throw .syntaxError

/-- Reads and prints the items of a `PRINT`. -/
def checkedPrintItems : (turns : Nat) → (newline : Bool) → Trial (Desk H) Unit
  | 0, _ => throw .syntaxError
  | turns + 1, newline => do
      let code ← Trial.ofAttempt Desk.look
      if code = Code.newline then
        if newline then
          Trial.ofAttempt (printing mode Printing.newline)
      else if code = Code.semicolon then
        Trial.ofAttempt Desk.advance
        checkedPrintItems turns false
      else if code = Code.comma then
        Trial.ofAttempt Desk.advance
        Trial.ofAttempt (printing mode (Printing.comma environment.config.width))
        checkedPrintItems turns false
      else
        checkedPrintItem bytes environment mode code
        checkedPrintItems turns true

/-- Checks the items of a `DATA`. -/
def checkedDataItems : (turns : Nat) → Trial (Desk H) Unit
  | 0 => throw .syntaxError
  | turns + 1 => do
      let _ ← checkedEvaluate bytes environment mode
      if (← Trial.ofAttempt (Desk.look : Attempt (Desk H) Code)) = Code.comma then
        Trial.ofAttempt Desk.advance
        checkedDataItems turns
      else
        Trial.ofAttempt Desk.expectEnd

/-- Reads the rest of a `FOR`. -/
def checkedLoopForm : Trial (Desk H) Command := do
  let name ← checkedNumberTarget bytes
  Trial.ofAttempt (Desk.expect Code.equals)
  let start ← checkedEvaluateNumber bytes environment mode
  Trial.ofAttempt (Desk.expect Keyword.«to».code)
  let limit ← checkedEvaluateNumber bytes environment mode
  Trial.ofAttempt Desk.expectEnd
  return .loop name start limit

/-- Reads the rest of a `DIM`. -/
def checkedDimensionForm : Trial (Desk H) Command := do
  let (name, use) ← checkedVariableName bytes
  if use ≠ .array then
    throw .syntaxError
  Trial.ofAttempt (Desk.skip name.length)
  let maxIndex ← checkedSubscript (checkedEvaluate bytes environment mode)
  Trial.ofAttempt Desk.expectEnd
  return .dimension name maxIndex

/-- Reads a statement from where it has a form of its own. -/
def checkedOwnForm (operands : Operands) : StatementWord → Trial (Desk H) Outcome
  | .if => do
      if (← Trial.ofAttempt (Desk.look : Attempt (Desk H) Code)) = Code.newline then
        throw .syntaxError
      return if mode = .execute ∧ operands.number? = some 0 then .done else .another
  | .print => do
      checkedPrintItems bytes environment mode (← Trial.ofAttempt turnsLeft) true
      return .done
  | .for => do return .act (← checkedLoopForm bytes environment mode)
  | .rem => do
      Trial.ofAttempt (Desk.scanning (modify Scanner.skipToEnd))
      return .done
  | .dim => do return .act (← checkedDimensionForm bytes environment mode)
  | .data => do
      match mode with
      | .execute => Trial.ofAttempt (Desk.scanning (modify Scanner.skipToEnd))
      | .check => checkedDataItems bytes environment mode (← Trial.ofAttempt turnsLeft)
      return .done
  | .poke => do
      let (address, value) ← checkedNumberPair bytes environment mode
      Trial.ofAttempt Desk.expectEnd
      return .act (.poke address value)
  | .beep => do
      let (duration, pitch) ← checkedNumberPair bytes environment mode
      Trial.ofAttempt Desk.expectEnd
      return .act (.beep duration pitch)
  | _ => throw .syntaxError

/-- Reads a statement. -/
def checkedStatement : Trial (Desk H) Outcome := do
  Trial.ofAttempt (modify fun desk => { desk with calculator := desk.calculator.clear })
  let code ← Trial.ofAttempt lookForWord
  if code = Code.newline then
    return .done
  let word ← Trial.ofAttempt (readWord code)
  let classes := word.operandClasses
  let operands ← classes.foldlM (checkedOperand bytes environment mode) Operands.none
  if classes.contains .ownForm then
    checkedOwnForm bytes environment mode operands word
  else
    Trial.ofAttempt Desk.expectEnd
    match operands.command? word with
    | some command => return .act command
    | none => throw .syntaxError

/-- Reads statements up to the first that does not lead on to another on its line. -/
def checkedStatements : (turns : Nat) → Trial (Desk H) (Option Command)
  | 0 => throw .syntaxError
  | turns + 1 => do
      match ← checkedStatement bytes environment mode with
      | .done => return none
      | .act command => return some command
      | .another => checkedStatements turns

/-- Reads a line, and yields the command that it comes to. -/
def checkedLine : Trial (Desk H) (Option Command) := do
  checkedStatements bytes environment mode (← Trial.ofAttempt turnsLeft)

/-! ## Within bounds -/

variable {bytes environment mode}

theorem bounded_numberPair :
    Bounded bytes (checkedNumberPair bytes environment mode : Trial (Desk H) (Int × Int))
      (numberPair environment mode) :=
  bounded_evaluateNumber.bind fun _ => (Desk.bounded_expect _).bind fun _ =>
    bounded_evaluateNumber.bind fun _ => Desk.bounded_pure _

omit [Console H] in
theorem bounded_variableName :
    Bounded bytes (checkedVariableName bytes : Trial (Desk H) (Name × NameUse)) variableName := by
  intro desk aligned
  refine (Desk.bounded_look desk aligned).bind fun code reached run aligned => ?_
  obtain ⟨looked, rfl⟩ := Prod.mk.inj run
  cases looked
  dsimp only
  cases letter : desk.scanner.look.current.isLetter with
  | false => exact Desk.bounded_throw _ _ aligned
  | true =>
      refine (Desk.boundedAt_readName aligned letter).bind fun (name, use) reached _ aligned => ?_
      refine (?_ : Bounded bytes _ _) reached aligned
      exact Bounded.guard (Desk.bounded_pure _)

omit [Console H] in
theorem bounded_numberTarget :
    Bounded bytes (checkedNumberTarget bytes : Trial (Desk H) Name) numberTarget :=
  bounded_variableName.bind fun _ => (Desk.bounded_skip _).bind fun _ =>
    Bounded.guard (Desk.bounded_look.bind fun _ => Desk.bounded_pure _)

theorem bounded_target :
    Bounded bytes (checkedTarget bytes environment mode : Trial (Desk H) Target)
      (target environment mode) := by
  refine bounded_variableName.bind fun (name, use) => (Desk.bounded_skip _).bind fun _ => ?_
  have ended (target : Target) : Bounded bytes
      (do
        let _ ← Trial.ofAttempt Desk.look
        return target : Trial (Desk H) Target)
      (do
        let _ ← Desk.look
        return target) :=
    Desk.bounded_look.bind fun _ => Desk.bounded_pure target
  cases use with
  | number => exact (Desk.bounded_pure _).bind ended
  | text => exact (Desk.bounded_skip 1).bind fun _ => (Desk.bounded_pure _).bind ended
  | array =>
      exact (bounded_subscript bounded_evaluate).bind fun index =>
        (Desk.bounded_pure _).bind ended
  | textFunction => exact (Desk.bounded_throw _).bind ended

theorem bounded_operand (operands : Operands) (operandClass : OperandClass) :
    Bounded bytes (checkedOperand bytes environment mode operands operandClass :
      Trial (Desk H) Operands) (operand environment mode operands operandClass) := by
  cases operandClass with
  | nothing | ownForm => exact Desk.bounded_pure operands
  | literal code => exact (Desk.bounded_expect code).bind fun _ => Desk.bounded_pure operands
  | target => exact bounded_target.bind fun _ => Desk.bounded_pure _
  | numberTarget => exact bounded_numberTarget.bind fun _ => Desk.bounded_pure _
  | matching => exact bounded_evaluate.bind fun _ => Bounded.guard (Desk.bounded_pure _)
  | number => exact bounded_evaluateNumber.bind fun _ => Desk.bounded_pure _
  | optionalNumber =>
      refine Desk.bounded_look.bind fun code => ?_
      split
      · exact Desk.bounded_pure operands
      · exact bounded_evaluateNumber.bind fun _ => Desk.bounded_pure _

theorem bounded_operands (operands : Operands) (classes : List OperandClass) :
    Bounded bytes (classes.foldlM (checkedOperand bytes environment mode) operands :
      Trial (Desk H) Operands) (classes.foldlM (operand environment mode) operands) := by
  induction classes generalizing operands with
  | nil => exact Desk.bounded_pure operands
  | cons first rest inductionHypothesis =>
      rw [List.foldlM_cons, List.foldlM_cons]
      exact (bounded_operand operands first).bind inductionHypothesis

omit [Console H] in
theorem bounded_printing (step : Attempt H Unit) :
    Bounded bytes (Trial.ofAttempt (printing mode step) : Trial (Desk H) Unit)
      (printing mode step) := by
  refine Desk.bounded_ofAttempt ?_
  cases mode with
  | check => exact Attempt.sustains_pure trivial
  | execute => exact Desk.keepsScanner_consulting step

section
variable (wide : 1 ≤ environment.config.width)
include wide

theorem bounded_tab (column : Int) :
    Bounded bytes (checkedTab environment mode column : Trial (Desk H) Unit)
      (printing mode (Printing.tab environment.config.width column)) := by
  cases mode with
  | check => exact Desk.bounded_pure _
  | execute =>
      exact Bounded.bind_lift (remainder?_eq wide column)
        (Desk.bounded_ofAttempt (Desk.keepsScanner_consulting _))

theorem bounded_printItem (code : Code) :
    Bounded bytes (checkedPrintItem bytes environment mode code : Trial (Desk H) Unit)
      (printItem environment mode code) := by
  have ended : Bounded bytes
      (do
        let next ← Trial.ofAttempt Desk.look
        if next ≠ Code.semicolon ∧ next ≠ Code.comma ∧ next ≠ Code.newline then
          throw .syntaxError : Trial (Desk H) Unit)
      (do
        let next ← Desk.look
        if next ≠ Code.semicolon ∧ next ≠ Code.comma ∧ next ≠ Code.newline then
          throw .syntaxError) := by
    refine Desk.bounded_look.bind fun next => ?_
    split
    · exact Desk.bounded_throw _
    · exact Desk.bounded_pure _
  unfold checkedPrintItem printItem
  dsimp only
  split
  · exact Desk.bounded_advance.bind fun _ => bounded_numberPair.bind fun _ =>
      (bounded_printing _).bind fun _ => ended
  · split
    · exact Desk.bounded_advance.bind fun _ => bounded_evaluateNumber.bind fun column =>
        (bounded_tab wide column).bind fun _ => ended
    · exact bounded_evaluate.bind fun _ => (bounded_printing _).bind fun _ => ended

theorem bounded_printItems (turns : Nat) (newline : Bool) :
    Bounded bytes (checkedPrintItems bytes environment mode turns newline : Trial (Desk H) Unit)
      (printItems environment mode turns newline) := by
  induction turns generalizing newline with
  | zero => exact Desk.bounded_throw _
  | succ turns inductionHypothesis =>
      refine Desk.bounded_look.bind fun code => ?_
      split
      · split
        · exact bounded_printing _
        · exact Desk.bounded_pure _
      · split
        · exact Desk.bounded_advance.bind fun _ => inductionHypothesis false
        · split
          · exact Desk.bounded_advance.bind fun _ => (bounded_printing _).bind fun _ =>
              inductionHypothesis false
          · exact (bounded_printItem wide code).bind fun _ => inductionHypothesis true

omit wide in
theorem bounded_dataItems (turns : Nat) :
    Bounded bytes (checkedDataItems bytes environment mode turns : Trial (Desk H) Unit)
      (dataItems environment mode turns) := by
  induction turns with
  | zero => exact Desk.bounded_throw _
  | succ turns inductionHypothesis =>
      refine bounded_evaluate.bind fun _ => Desk.bounded_look.bind fun code => ?_
      split
      · exact Desk.bounded_advance.bind fun _ => inductionHypothesis
      · exact Desk.bounded_expectEnd

omit wide in
theorem bounded_loopForm :
    Bounded bytes (checkedLoopForm bytes environment mode : Trial (Desk H) Command)
      (loopForm environment mode) :=
  bounded_numberTarget.bind fun _ => (Desk.bounded_expect _).bind fun _ =>
    bounded_evaluateNumber.bind fun _ => (Desk.bounded_expect _).bind fun _ =>
      bounded_evaluateNumber.bind fun _ => Desk.bounded_expectEnd.bind fun _ =>
        Desk.bounded_pure _

omit wide in
theorem bounded_dimensionForm :
    Bounded bytes (checkedDimensionForm bytes environment mode : Trial (Desk H) Command)
      (dimensionForm environment mode) := by
  refine bounded_variableName.bind fun (name, use) => ?_
  exact Bounded.guard ((Desk.bounded_skip _).bind fun _ =>
    (bounded_subscript bounded_evaluate).bind fun _ => Desk.bounded_expectEnd.bind fun _ =>
      Desk.bounded_pure _)

omit [Console H] wide in
theorem bounded_turnsLeft :
    Bounded bytes (Trial.ofAttempt turnsLeft : Trial (Desk H) Nat) turnsLeft :=
  fun _ aligned => ⟨rfl, aligned⟩

omit [Console H] wide in
theorem bounded_skipToEnd :
    Bounded bytes
      (Trial.ofAttempt (Desk.scanning (modify Scanner.skipToEnd)) : Trial (Desk H) PUnit)
      (Desk.scanning (modify Scanner.skipToEnd)) :=
  Desk.bounded_ofAttempt (Desk.keepsScanner_skipToEnd (Scanner.inline_over bytes))

theorem bounded_ownForm (operands : Operands) (word : StatementWord) :
    Bounded bytes (checkedOwnForm bytes environment mode operands word : Trial (Desk H) Outcome)
      (ownForm environment mode operands word) := by
  cases word with
  | «if» =>
      refine Desk.bounded_look.bind fun code => ?_
      exact Bounded.guard (Desk.bounded_pure _)
  | print =>
      exact bounded_turnsLeft.bind fun turns => (bounded_printItems wide turns true).bind fun _ =>
        Desk.bounded_pure _
  | «for» => exact bounded_loopForm.bind fun _ => Desk.bounded_pure _
  | rem => exact bounded_skipToEnd.bind fun _ => Desk.bounded_pure _
  | dim => exact bounded_dimensionForm.bind fun _ => Desk.bounded_pure _
  | data =>
      cases mode with
      | execute => exact bounded_skipToEnd.bind fun _ => Desk.bounded_pure _
      | check =>
          exact bounded_turnsLeft.bind fun turns => (bounded_dataItems turns).bind fun _ =>
            Desk.bounded_pure _
  | poke | beep =>
      exact bounded_numberPair.bind fun _ => Desk.bounded_expectEnd.bind fun _ =>
        Desk.bounded_pure _
  | _ => exact Desk.bounded_throw _

theorem bounded_statement :
    Bounded bytes (checkedStatement bytes environment mode : Trial (Desk H) Outcome)
      (statement environment mode) := by
  have cleared : Bounded bytes (Trial.ofAttempt (modify fun desk : Desk H =>
      { desk with calculator := desk.calculator.clear }))
      (modify fun desk : Desk H => { desk with calculator := desk.calculator.clear }) :=
    fun _ aligned => ⟨rfl, aligned⟩
  have looked : Bounded bytes (Trial.ofAttempt lookForWord : Trial (Desk H) Code) lookForWord :=
    fun desk aligned => ⟨rfl, (Scanner.inline_over bytes).look aligned⟩
  have word (code : Code) : Bounded bytes
      (Trial.ofAttempt (readWord code) : Trial (Desk H) StatementWord) (readWord code) := by
    refine Desk.bounded_ofAttempt ?_
    unfold readWord
    split
    · exact (Desk.keepsScanner_advance (Scanner.inline_over bytes)).bind fun _ _ =>
        Attempt.sustains_pure trivial
    · split
      · exact Attempt.sustains_pure trivial
      · exact Attempt.sustains_throw _
  refine cleared.bind fun _ => looked.bind fun code => ?_
  dsimp only
  split
  · exact Desk.bounded_pure _
  · refine (word code).bind fun word => (bounded_operands _ _).bind fun operands => ?_
    split
    · exact bounded_ownForm wide operands word
    · refine Desk.bounded_expectEnd.bind fun _ => ?_
      cases operands.command? word with
      | some command => exact Desk.bounded_pure _
      | none => exact Desk.bounded_throw _

theorem bounded_statements (turns : Nat) :
    Bounded bytes (checkedStatements bytes environment mode turns :
      Trial (Desk H) (Option Command)) (statements environment mode turns) := by
  induction turns with
  | zero => exact Desk.bounded_throw _
  | succ turns inductionHypothesis =>
      refine (bounded_statement wide).bind fun outcome => ?_
      cases outcome with
      | done => exact Desk.bounded_pure _
      | act command => exact Desk.bounded_pure _
      | another => exact inductionHypothesis

/-- A line is read within bounds wherever it stands. -/
theorem bounded_line :
    Bounded bytes (checkedLine bytes environment mode : Trial (Desk H) (Option Command))
      (line environment mode) :=
  bounded_turnsLeft.bind fun turns => bounded_statements wide turns

end

end Statement
end HomeBasic
