import HomeBasic.Expression
import HomeBasic.Proofs.Desk.Bounds
import HomeBasic.Proofs.Variables.Bounds

/-!
# Expressions with everything checked

An expression cuts names out of the bytes that it is read from, and takes elements out of arrays
and bytes out of the memory. With all of this checked it is evaluated as it is without, wherever
it stands in the bytes.

Main statement: `bounded_evaluate`.
-/

namespace HomeBasic

open Checked
open Desk (Bounded BoundedAt)

/-- The byte at an address. -/
def Environment.checkedPeek (environment : Environment) (address : Int) :
    Option (Except Fault Code) :=
  if 0 ≤ address ∧ address.toNat < environment.memory.size then do
    return .ok (← environment.memory[address.toNat]?)
  else
    some (.error .subscriptOutOfRange)

theorem Environment.checkedPeek_eq (environment : Environment) (address : Int) :
    environment.checkedPeek address = some (environment.peek address) := by
  unfold checkedPeek peek
  by_cases positive : 0 ≤ address
  · by_cases inside : address.toNat < environment.memory.size
    · simp [positive, inside]
    · simp [positive, inside]
  · simp [positive]

/-- What a function yields for an argument. -/
def Function.checkedCall {H : Type} [Console H] (environment : Environment) (function : Function)
    (argument : Value) : Trial H Value :=
  match function, argument with
  | .peek, .number address => do
      let byte ← environment.checkedPeek address
      return .number (← Trial.ofAttempt (Attempt.ofExcept byte)).toNat
  | function, argument => Trial.ofAttempt (function.call environment argument)

theorem Function.succeeds_call {H : Type} [Console H] (environment : Environment)
    (function : Function) (argument : Value) (console : H) :
    Trial.Succeeds (function.checkedCall environment argument) (function.call environment argument)
      console := by
  unfold checkedCall
  split
  next address =>
    refine Trial.Succeeds.bind_lift (environment.checkedPeek_eq address) ?_
    exact Trial.Succeeds.bind rfl fun _ _ _ => rfl
  next => rfl

namespace Expression

variable {H : Type} [Console H] (bytes : List Code) (environment : Environment) (mode : Mode)

/-! ## With everything checked -/

section
variable (nested : Trial (Desk H) Value)

/-- Evaluates an expression that has to be a number. -/
def checkedNumber : Trial (Desk H) Int := do
  match ← nested with
  | .number value => return value
  | .text _ => throw .syntaxError

/-- Reads a number in brackets. -/
def checkedSubscript : Trial (Desk H) Int := do
  Trial.ofAttempt (Desk.expect Code.leftParen)
  let index ← checkedNumber nested
  Trial.ofAttempt (Desk.expect Code.rightParen)
  return index

/-- Reads the argument of a function and calls it. -/
def checkedCallFunction (function : Function) : Trial (Desk H) Value := do
  let argument ←
    if function.takesArgument then do
      Trial.ofAttempt (Desk.expect Code.leftParen)
      let argument ← nested
      Trial.ofAttempt (Desk.expect Code.rightParen)
      if argument.isText ≠ function.takesText then
        throw .syntaxError
      pure argument
    else
      pure (.number 0)
  match mode with
  | .check => return function.placeholder
  | .execute =>
      Trial.within (·.console) (fun console desk => { desk with console })
        (function.checkedCall environment argument)

/-- Reads what a name refers to: a variable, an element of an array, or a call. -/
def checkedReference : Trial (Desk H) Value := do
  let (name, use) ← Desk.checkedReadName bytes
  match Function.ofName? name use with
  | some function =>
      Trial.ofAttempt (Desk.skip name.length)
      if use = .textFunction then
        Trial.ofAttempt (Desk.skip 1)
      checkedCallFunction environment mode nested function
  | none =>
      if Function.isReserved name then
        throw .syntaxError
      Trial.ofAttempt (Desk.skip name.length)
      let value ← match use with
        | .number =>
            match mode with
            | .check => pure (.number 0)
            | .execute => do
                let number := environment.variableStore.number name
                pure (.number (← Trial.ofAttempt (Attempt.ofExcept number)))
        | .text => do
            Trial.ofAttempt (Desk.skip 1)
            match mode with
            | .check => pure (.text [])
            | .execute => do
                let text := environment.variableStore.text name
                pure (.text (← Trial.ofAttempt (Attempt.ofExcept text)))
        | .array => do
            let index ← checkedSubscript nested
            match mode with
            | .check => pure (.number 0)
            | .execute => do
                let element ← environment.variableStore.checkedElement name index
                pure (.number (← Trial.ofAttempt (Attempt.ofExcept element)))
        | .textFunction => throw .syntaxError
      let _ ← Trial.ofAttempt Desk.look
      return value

/-- Reads an operand that opens with a code. -/
def checkedOperand (code : Code) : Trial (Desk H) Value := do
  if code.isDigit then
    let number := Scanner.readNumber environment.config.word
    return .number (← Trial.ofAttempt (Desk.scanning number))
  else if code = Code.quote then
    return .text (← Trial.ofAttempt (Desk.scanning Scanner.readText))
  else if code = Code.leftParen then
    Trial.ofAttempt Desk.advance
    let value ← nested
    Trial.ofAttempt (Desk.expect Code.rightParen)
    return value
  else if code.isLetter then
    checkedReference bytes environment mode nested
  else
    throw .syntaxError

/-- Reads operands and operators in turn up to the end of the expression. -/
def checkedOperations : (turns : Nat) → Trial (Desk H) Value
  | 0 => throw .syntaxError
  | turns + 1 => do
      let code ← Trial.ofAttempt Desk.look
      match Pending.ofCode? code with
      | some pending =>
          Trial.ofAttempt Desk.advance
          Trial.ofAttempt (Desk.push pending)
          checkedOperations turns
      | none =>
          let value ← checkedOperand bytes environment mode nested code
          let operator ← Trial.ofAttempt readOperator
          let desk ← get
          match foldAll environment mode operator desk.calculator.items value with
          | .error fault => throw fault
          | .ok (.ended result below) =>
              set { desk with calculator := { desk.calculator with items := below } }
              return result
          | .ok (.waiting result stack) =>
              set { desk with calculator := { desk.calculator with items := stack } }
              Trial.ofAttempt (Desk.push ⟨result, operator, operator.priority⟩)
              checkedOperations turns

end

/-- Evaluates the expression at the scanner, inside which so many levels may still be opened. -/
def checkedEvaluateWithin : (levels : Nat) → Trial (Desk H) Value
  | 0 => throw .outOfMemory
  | levels + 1 => Desk.checkedRestoring do
      Trial.ofAttempt (Desk.push .sentinel)
      let desk ← get
      checkedOperations bytes environment mode (checkedEvaluateWithin levels)
        (desk.scanner.rest.length + 1)

/-- Evaluates the expression at the scanner. -/
def checkedEvaluate : Trial (Desk H) Value :=
  checkedEvaluateWithin bytes environment mode environment.config.maxNesting

/-- Evaluates the expression at the scanner, which has to be a number. -/
def checkedEvaluateNumber : Trial (Desk H) Int :=
  checkedNumber (checkedEvaluate bytes environment mode)

/-! ## Within bounds -/

variable {bytes environment mode}

section
variable {nested : Trial (Desk H) Value} {inner : Attempt (Desk H) Value}
  (bounded : Bounded bytes nested inner)
include bounded

omit [Console H] in
theorem bounded_number : Bounded bytes (checkedNumber nested) (number inner) := by
  refine bounded.bind fun value => ?_
  cases value with
  | number value => exact Desk.bounded_pure value
  | text codes => exact Desk.bounded_throw _

omit [Console H] in
theorem bounded_subscript : Bounded bytes (checkedSubscript nested) (subscript inner) :=
  (Desk.bounded_expect _).bind fun _ => (bounded_number bounded).bind fun index =>
    (Desk.bounded_expect _).bind fun _ => Desk.bounded_pure index

theorem bounded_callFunction (function : Function) :
    Bounded bytes (checkedCallFunction environment mode nested function)
      (callFunction environment mode inner function) := by
  have called (argument : Value) : Bounded bytes
      (match mode with
        | .check => pure function.placeholder
        | .execute => Trial.within (·.console) (fun console desk => { desk with console })
            (function.checkedCall environment argument) : Trial (Desk H) Value)
      (match mode with
        | .check => pure function.placeholder
        | .execute => Desk.consulting (function.call environment argument)) := by
    cases mode with
    | check => exact Desk.bounded_pure _
    | execute =>
        exact fun desk aligned =>
          ⟨Trial.Succeeds.within (function.succeeds_call environment argument desk.console),
            aligned⟩
  unfold checkedCallFunction callFunction
  dsimp only
  split
  · refine (Desk.bounded_expect _).bind fun _ => bounded.bind fun argument => ?_
    refine (Desk.bounded_expect _).bind fun _ => Bounded.guard ?_
    exact (Desk.bounded_pure argument).bind called
  · exact (Desk.bounded_pure _).bind called

theorem boundedAt_reference {desk : Desk H} (aligned : desk.Over bytes)
    (letter : desk.scanner.current.isLetter = true) :
    BoundedAt bytes (checkedReference bytes environment mode nested)
      (reference environment mode inner) desk := by
  refine (Desk.boundedAt_readName aligned letter).bind fun (name, use) reached _ aligned => ?_
  refine (?_ : Bounded bytes _ _) reached aligned
  dsimp only
  cases Function.ofName? name use with
  | some function =>
      refine (Desk.bounded_skip _).bind fun _ => ?_
      split
      · exact (Desk.bounded_skip 1).bind fun _ => bounded_callFunction bounded function
      · exact bounded_callFunction bounded function
  | none =>
      refine Bounded.guard ((Desk.bounded_skip _).bind fun _ => ?_)
      have found {α : Type} (result : Except Fault α) : Bounded bytes
          (Trial.ofAttempt (Attempt.ofExcept result) : Trial (Desk H) α)
          (Attempt.ofExcept result) := fun _ aligned => ⟨rfl, aligned⟩
      have ended (value : Value) : Bounded bytes
          (do
            let _ ← Trial.ofAttempt Desk.look
            return value : Trial (Desk H) Value)
          (do
            let _ ← Desk.look
            return value) :=
        Desk.bounded_look.bind fun _ => Desk.bounded_pure value
      cases use with
      | number =>
          cases mode with
          | check => exact (Desk.bounded_pure _).bind ended
          | execute => exact (found _).bind fun _ => (Desk.bounded_pure _).bind ended
      | text =>
          refine (Desk.bounded_skip 1).bind fun _ => ?_
          cases mode with
          | check => exact (Desk.bounded_pure _).bind ended
          | execute => exact (found _).bind fun _ => (Desk.bounded_pure _).bind ended
      | array =>
          refine (bounded_subscript bounded).bind fun index => ?_
          cases mode with
          | check => exact (Desk.bounded_pure _).bind ended
          | execute =>
              exact Bounded.bind_lift (Variables.checkedElement_eq _ name index)
                ((found _).bind fun _ => (Desk.bounded_pure _).bind ended)
      | textFunction => exact (Desk.bounded_throw _).bind ended

theorem boundedAt_operand {desk : Desk H} (aligned : desk.Over bytes) :
    BoundedAt bytes (checkedOperand bytes environment mode nested desk.scanner.current)
      (operand environment mode inner desk.scanner.current) desk := by
  unfold checkedOperand operand
  split
  next =>
    exact (Desk.bounded_ofAttempt (Desk.keepsScanner_scanning
      ((Scanner.inline_over bytes).sustains_readNumber _))).bind
      (fun _ => Desk.bounded_pure _) desk aligned
  next =>
    split
    next =>
      exact (Desk.bounded_ofAttempt (Desk.keepsScanner_scanning
        (Scanner.lasting_over bytes).sustains_readText)).bind
        (fun _ => Desk.bounded_pure _) desk aligned
    next =>
      split
      next =>
        exact (Desk.bounded_advance.bind fun _ => bounded.bind fun _ =>
          (Desk.bounded_expect _).bind fun _ => Desk.bounded_pure _) desk aligned
      next =>
        split
        next letter => exact boundedAt_reference bounded aligned letter
        next => exact Desk.bounded_throw _ desk aligned

theorem bounded_operations (turns : Nat) :
    Bounded bytes (checkedOperations bytes environment mode nested turns)
      (operations environment mode inner turns) := by
  induction turns with
  | zero => exact Desk.bounded_throw _
  | succ turns inductionHypothesis =>
      have pushed (pending : Pending) : Bounded bytes
          (Trial.ofAttempt (Desk.push pending) : Trial (Desk H) Unit) (Desk.push pending) :=
        Desk.bounded_ofAttempt (Desk.keepsScanner_push pending)
      have read : Bounded bytes (Trial.ofAttempt readOperator : Trial (Desk H) Operator)
          readOperator := by
        have inline := Scanner.inline_over bytes
        refine Desk.bounded_ofAttempt ((Desk.keepsScanner_look inline).bind fun code _ => ?_)
        dsimp only
        split
        · exact (Desk.keepsScanner_advance inline).bind fun _ _ => Attempt.sustains_pure trivial
        · exact Attempt.sustains_pure trivial
      intro desk aligned
      refine (Desk.bounded_look desk aligned).bind fun code reached run aligned => ?_
      obtain ⟨looked, rfl⟩ := Prod.mk.inj run
      cases looked
      cases Pending.ofCode? desk.scanner.look.current with
      | some pending =>
          exact (Desk.bounded_advance.bind fun _ => (pushed pending).bind fun _ =>
            inductionHypothesis) _ aligned
      | none =>
          refine (boundedAt_operand bounded aligned).bind fun value reached _ aligned => ?_
          refine (read.bind fun operator => ?_ : Bounded bytes _ _) reached aligned
          intro desk aligned
          refine (Desk.bounded_get desk aligned).bind fun same other run aligned => ?_
          cases run
          dsimp only
          cases foldAll environment mode operator desk.calculator.items value with
          | error fault => exact Desk.bounded_throw fault desk aligned
          | ok folded =>
              cases folded with
              | ended result below => exact ⟨rfl, aligned⟩
              | waiting result stack =>
                  refine BoundedAt.bind ⟨rfl, aligned⟩ fun _ reached run _ => ?_
                  cases run
                  exact ((pushed _).bind fun _ => inductionHypothesis) _ aligned

end

theorem bounded_evaluateWithin (levels : Nat) :
    Bounded bytes (checkedEvaluateWithin bytes environment mode levels : Trial (Desk H) Value)
      (evaluateWithin environment mode levels) := by
  induction levels with
  | zero => exact Desk.bounded_throw _
  | succ levels inductionHypothesis =>
      refine Bounded.restoring ?_
      refine (Desk.bounded_ofAttempt (Desk.keepsScanner_push _)).bind fun _ =>
        Desk.bounded_get.bind fun desk => ?_
      exact bounded_operations inductionHypothesis _

/-- An expression is evaluated within bounds wherever it stands. -/
theorem bounded_evaluate :
    Bounded bytes (checkedEvaluate bytes environment mode : Trial (Desk H) Value)
      (evaluate environment mode) :=
  bounded_evaluateWithin _

theorem bounded_evaluateNumber :
    Bounded bytes (checkedEvaluateNumber bytes environment mode : Trial (Desk H) Int)
      (evaluateNumber environment mode) :=
  bounded_number bounded_evaluate

end Expression
end HomeBasic
