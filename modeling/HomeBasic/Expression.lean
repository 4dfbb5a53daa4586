import HomeBasic.Desk
import HomeBasic.Function.Call

/-!
# Expressions

Expressions are evaluated by operator priority, with one stack of pending
operations that all the evaluations inside one another share. Each evaluation
opens with a sentinel of priority zero and ends at the sentinel. A minus in front
of an operand is `0 -` and `NOT` is `-1 -`, each pending with a priority of its own.

Checking works out types and no values: it reads no variable and asks the console
nothing.
-/

namespace HomeBasic

namespace Operator

/-- The operator that a code stands for. -/
def ofCode (code : Code) : Operator :=
  if code = Code.plus then add
  else if code = Code.minus then subtract
  else if code = Code.star then multiply
  else if code = Code.slash then divide
  else if code = Code.equals then equal
  else if code = Code.less then less
  else if code = Code.greater then greater
  else match Token.ofCode? code with
    | some (.keyword .and) => and
    | some (.keyword .or) => or
    | some (.keyword .power) => power
    | some (.keyword .lessEqual) => lessEqual
    | some (.keyword .greaterEqual) => greaterEqual
    | some (.keyword .notEqual) => notEqual
    | _ => absent

end Operator

namespace Expression

variable {H : Type} [Console H] (environment : Environment) (mode : Mode)

/-- What a pending operation makes of its right-hand side. -/
def fold (pending : Pending) (right : Value) : Except Fault Value :=
  match pending.value, right with
  | .number left, .number right =>
      match mode with
      | .check => .ok (.number 0)
      | .execute =>
          (pending.operator.apply environment.config.word left right).map .number
  | .text left, .text right =>
      match pending.operator.compareTexts left right, mode with
      | .ok _, .check => .ok (.number 0)
      | .ok result, .execute => .ok (.number result)
      | .error fault, _ => .error fault
  | _, _ => .error .syntaxError

/-- What is left to do after folding: the expression has ended, or a further operand follows. -/
inductive Folded
  | ended (value : Value) (below : List Pending)
  | waiting (value : Value) (stack : List Pending)

/-- Folds the operations that bind at least as tightly as an operator, down to the sentinel. -/
def foldAll (operator : Operator) : List Pending → Value → Except Fault Folded
  | [], value =>
      .ok (if 0 < operator.priority then .waiting value [] else .ended value [])
  | pending :: stack, value =>
      if pending.priority < operator.priority then
        .ok (.waiting value (pending :: stack))
      else if pending.operator = .absent then
        .ok (.ended value stack)
      else
        match fold environment mode pending value with
        | .ok result => foldAll operator stack result
        | .error fault => .error fault

/-- Reads the operator at the scanner, absent where the expression ends. -/
def readOperator : Attempt (Desk H) Operator := do
  let operator := Operator.ofCode (← Desk.look)
  if operator ≠ .absent then
    Desk.advance
  return operator

section
variable (nested : Attempt (Desk H) Value)

/-- Evaluates an expression that has to be a number. -/
def number : Attempt (Desk H) Int := do
  match ← nested with
  | .number value => return value
  | .text _ => throw .syntaxError

/-- Reads a number in brackets. -/
def subscript : Attempt (Desk H) Int := do
  Desk.expect Code.leftParen
  let index ← number nested
  Desk.expect Code.rightParen
  return index

/-- Reads the argument of a function and calls it. -/
def callFunction (function : Function) : Attempt (Desk H) Value := do
  let argument ←
    if function.takesArgument then do
      Desk.expect Code.leftParen
      let argument ← nested
      Desk.expect Code.rightParen
      if argument.isText ≠ function.takesText then
        throw .syntaxError
      pure argument
    else
      pure (.number 0)
  match mode with
  | .check => return function.placeholder
  | .execute => Desk.consulting (function.call environment argument)

/-- Reads what a name refers to: a variable, an element of an array, or a call. -/
def reference : Attempt (Desk H) Value := do
  let (name, use) ← Desk.readName
  match Function.ofName? name use with
  | some function =>
      Desk.skip name.length
      if use = .textFunction then
        Desk.skip 1
      callFunction environment mode nested function
  | none =>
      if Function.isReserved name then
        throw .syntaxError
      Desk.skip name.length
      let value ← match use with
        | .number =>
            match mode with
            | .check => pure (.number 0)
            | .execute => do
                pure (.number (← Attempt.ofExcept (environment.variableStore.number name)))
        | .text => do
            Desk.skip 1
            match mode with
            | .check => pure (.text [])
            | .execute => do
                pure (.text (← Attempt.ofExcept (environment.variableStore.text name)))
        | .array => do
            let index ← subscript nested
            match mode with
            | .check => pure (.number 0)
            | .execute => do
                pure (.number (← Attempt.ofExcept (environment.variableStore.element name index)))
        | .textFunction => throw .syntaxError
      let _ ← Desk.look
      return value

/-- Reads an operand that opens with a code. -/
def operand (code : Code) : Attempt (Desk H) Value := do
  if code.isDigit then
    return .number (← Desk.scanning (Scanner.readNumber environment.config.word))
  else if code = Code.quote then
    return .text (← Desk.scanning Scanner.readText)
  else if code = Code.leftParen then
    Desk.advance
    let value ← nested
    Desk.expect Code.rightParen
    return value
  else if code.isLetter then
    reference environment mode nested
  else
    throw .syntaxError

/--
Reads operands and operators in turn up to the end of the expression. Every turn
takes up a code of the line, so as many turns as there are codes left, and one
more to fail in, are enough.
-/
def operations : (turns : Nat) → Attempt (Desk H) Value
  | 0 => throw .syntaxError
  | turns + 1 => do
      let code ← Desk.look
      match Pending.ofCode? code with
      | some pending =>
          Desk.advance
          Desk.push pending
          operations turns
      | none =>
          let value ← operand environment mode nested code
          let operator ← readOperator
          let desk ← get
          match foldAll environment mode operator desk.calculator.items value with
          | .error fault => throw fault
          | .ok (.ended result below) =>
              set { desk with calculator := { desk.calculator with items := below } }
              return result
          | .ok (.waiting result stack) =>
              set { desk with calculator := { desk.calculator with items := stack } }
              Desk.push ⟨result, operator, operator.priority⟩
              operations turns

end

/-- Evaluates the expression at the scanner, inside which so many levels may still be opened. -/
def evaluateWithin : (levels : Nat) → Attempt (Desk H) Value
  | 0 => throw .outOfMemory
  | levels + 1 => Desk.restoring do
      Desk.push .sentinel
      let desk ← get
      operations environment mode (evaluateWithin levels) (desk.scanner.rest.length + 1)

/-- Evaluates the expression at the scanner. -/
def evaluate : Attempt (Desk H) Value :=
  evaluateWithin environment mode environment.config.maxNesting

/-- Evaluates the expression at the scanner, which has to be a number. -/
def evaluateNumber : Attempt (Desk H) Int :=
  number (evaluate environment mode)

end Expression
end HomeBasic
