import HomeBasic.Command
import HomeBasic.Expression
import HomeBasic.Printing

/-!
# Statements

A statement is read along the operand classes of its word, and what it asks for
comes out as a command. `PRINT` prints as it is read, since a fault must leave
what was printed before; all other statements only act once all of the line is
read. After a true `IF` the rest of the line is another statement.
-/

namespace HomeBasic

/-- What comes of a statement: nothing more, a command, or another statement on the line. -/
inductive Outcome
  | done
  | act (command : Command)
  | another
  deriving DecidableEq, Repr, Inhabited

/-- One step in reading the operands of a statement. -/
inductive OperandClass
  | nothing
  /-- A number, an element or a text to assign to. -/
  | target
  /-- An expression of the kind its target takes. -/
  | matching
  /-- A number, if anything is left on the line. -/
  | optionalNumber
  /-- A number to assign to, and no element. -/
  | numberTarget
  /-- The statement has a form of its own from here on. -/
  | ownForm
  | number
  /-- Exactly this code. -/
  | literal (code : Code)
  deriving DecidableEq, Repr, Inhabited

namespace StatementWord

/-- The operands of each statement, in order. -/
def operandClasses : StatementWord → List OperandClass
  | list | run | restore => [.optionalNumber]
  | new | clear | cont | «return» | stop | cls => [.nothing]
  | save | load | goto | gosub | wait => [.number]
  | «let» => [.target, .literal Code.equals, .matching]
  | input | read => [.target]
  | «if» => [.number, .literal Keyword.then.code, .ownForm]
  | next => [.numberTarget]
  | print | «for» | rem | dim | data | poke | beep => [.ownForm]

end StatementWord

/-- The operands that have been read. -/
structure Operands where
  target : Option Target
  value : Option Value
  deriving DecidableEq, Repr, Inhabited

namespace Operands

/-- No operands. -/
def none : Operands := ⟨.none, .none⟩

/-- The operand, if it is a number. -/
def number? (operands : Operands) : Option Int :=
  operands.value.bind Value.number?

/-- What a word asks for with its operands, if it has no form of its own. -/
def command? (operands : Operands) : StatementWord → Option Command
  | .list => some (.list operands.number?)
  | .run => some (.run operands.number?)
  | .new => some .new
  | .clear => some .clear
  | .cont => some .cont
  | .save => operands.number?.map .save
  | .load => operands.number?.map .load
  | .let =>
      match operands.target, operands.value with
      | some target, some value => some (.assign target value)
      | _, _ => .none
  | .input => operands.target.map .input
  | .goto => operands.number?.map .goto
  | .gosub => operands.number?.map .gosub
  | .return => some .return
  | .next =>
      match operands.target with
      | some (.number name) => some (.next name)
      | _ => .none
  | .stop => some .stop
  | .read => operands.target.map .read
  | .restore => some (.restore operands.number?)
  | .wait => operands.number?.map .wait
  | .cls => some .cls
  | .if | .print | .for | .rem | .dim | .data | .poke | .beep => .none

end Operands

namespace Statement

variable {H : Type} [Console H] (environment : Environment) (mode : Mode)

/-- Reads an expression. -/
def expression : Attempt (Desk H) Value :=
  Expression.evaluate environment mode

/-- Reads an expression that has to be a number. -/
def number : Attempt (Desk H) Int :=
  Expression.evaluateNumber environment mode

/-- Reads two numbers with a comma between them. -/
def numberPair : Attempt (Desk H) (Int × Int) := do
  let first ← number environment mode
  Desk.expect Code.comma
  return (first, ← number environment mode)

/-- Prints, if the line is carried out. -/
def printing (step : Attempt H Unit) : Attempt (Desk H) Unit :=
  match mode with
  | .check => pure ()
  | .execute => Desk.consulting step

/-- Reads the name of a variable. The names of functions are refused. -/
def variableName : Attempt (Desk H) (Name × NameUse) := do
  if !(← Desk.look).isLetter then
    throw .syntaxError
  let (name, use) ← Desk.readName
  if Function.isReserved name then
    throw .syntaxError
  return (name, use)

/-- Reads a number to assign to. -/
def numberTarget : Attempt (Desk H) Name := do
  let (name, use) ← variableName
  Desk.skip name.length
  if use ≠ .number then
    throw .syntaxError
  let _ ← Desk.look
  return name

/-- Reads a place to assign to. -/
def target : Attempt (Desk H) Target := do
  let (name, use) ← variableName
  Desk.skip name.length
  let target ← match use with
    | .number => pure (Target.number name)
    | .text => do
        Desk.skip 1
        pure (Target.text name)
    | .array => do
        pure (Target.element name (← Expression.subscript (expression environment mode)))
    | .textFunction => throw .syntaxError
  let _ ← Desk.look
  return target

/-- Reads an operand of a class. -/
def operand (operands : Operands) : OperandClass → Attempt (Desk H) Operands
  | .nothing | .ownForm => return operands
  | .literal code => do
      Desk.expect code
      return operands
  | .target => do return { operands with target := some (← target environment mode) }
  | .numberTarget => do return { operands with target := some (.number (← numberTarget)) }
  | .matching => do
      let value ← expression environment mode
      if operands.target.any (·.isText != value.isText) then
        throw .syntaxError
      return { operands with value := some value }
  | .number => do
      return { operands with value := some (.number (← number environment mode)) }
  | .optionalNumber => do
      if (← Desk.look) = Code.newline then
        return operands
      return { operands with value := some (.number (← number environment mode)) }

/-- Reads what a `PRINT` item says and prints it. -/
def printItem (code : Code) : Attempt (Desk H) Unit := do
  if code = Keyword.at.code then
    Desk.advance
    let (row, column) ← numberPair environment mode
    printing mode (Printing.moveTo row column)
  else if code = Keyword.tab.code then
    Desk.advance
    let column ← number environment mode
    printing mode (Printing.tab environment.config.width column)
  else
    let value ← expression environment mode
    printing mode (Printing.value value)
  let next ← Desk.look
  if next ≠ Code.semicolon ∧ next ≠ Code.comma ∧ next ≠ Code.newline then
    throw .syntaxError

/-- Reads and prints the items of a `PRINT`. Every turn takes up a code of the line. -/
def printItems : (turns : Nat) → (newline : Bool) → Attempt (Desk H) Unit
  | 0, _ => throw .syntaxError
  | turns + 1, newline => do
      let code ← Desk.look
      if code = Code.newline then
        if newline then
          printing mode Printing.newline
      else if code = Code.semicolon then
        Desk.advance
        printItems turns false
      else if code = Code.comma then
        Desk.advance
        printing mode (Printing.comma environment.config.width)
        printItems turns false
      else
        printItem environment mode code
        printItems turns true

/-- Checks the items of a `DATA`. Every turn takes up a code of the line. -/
def dataItems : (turns : Nat) → Attempt (Desk H) Unit
  | 0 => throw .syntaxError
  | turns + 1 => do
      let _ ← expression environment mode
      if (← Desk.look) = Code.comma then
        Desk.advance
        dataItems turns
      else
        Desk.expectEnd

/-- Reads the rest of a `FOR`. -/
def loopForm : Attempt (Desk H) Command := do
  let name ← numberTarget
  Desk.expect Code.equals
  let start ← number environment mode
  Desk.expect Keyword.«to».code
  let limit ← number environment mode
  Desk.expectEnd
  return .loop name start limit

/-- Reads the rest of a `DIM`. -/
def dimensionForm : Attempt (Desk H) Command := do
  let (name, use) ← variableName
  if use ≠ .array then
    throw .syntaxError
  Desk.skip name.length
  let maxIndex ← Expression.subscript (expression environment mode)
  Desk.expectEnd
  return .dimension name maxIndex

/-- More turns than there are codes left on the line. -/
def turnsLeft : Attempt (Desk H) Nat := do
  return (← get).scanner.rest.length + 1

/-- Reads a statement from where it has a form of its own. -/
def ownForm (operands : Operands) : StatementWord → Attempt (Desk H) Outcome
  | .if => do
      if (← Desk.look) = Code.newline then
        throw .syntaxError
      return if mode = .execute ∧ operands.number? = some 0 then .done else .another
  | .print => do
      printItems environment mode (← turnsLeft) true
      return .done
  | .for => do return .act (← loopForm environment mode)
  | .rem => do
      Desk.scanning (modify Scanner.skipToEnd)
      return .done
  | .dim => do return .act (← dimensionForm environment mode)
  | .data => do
      -- Items are evaluated when they are read, and only checked here.
      match mode with
      | .execute => Desk.scanning (modify Scanner.skipToEnd)
      | .check => dataItems environment mode (← turnsLeft)
      return .done
  | .poke => do
      let (address, value) ← numberPair environment mode
      Desk.expectEnd
      return .act (.poke address value)
  | .beep => do
      let (duration, pitch) ← numberPair environment mode
      Desk.expectEnd
      return .act (.beep duration pitch)
  | _ => throw .syntaxError

/-- Reads the word that opens a statement; a name opens an assignment. -/
def readWord (code : Code) : Attempt (Desk H) StatementWord :=
  match Token.ofCode? code with
  | some (.word word) => do
      Desk.advance
      return word
  | _ => if code.isLetter then pure .let else throw .syntaxError

/-- Looks at the place of a statement word. -/
def lookForWord : Attempt (Desk H) Code :=
  Desk.scanning do
    modify fun scanner => { scanner with wordExpected := true }.look
    modify fun scanner => { scanner with wordExpected := false }
    return (← get).current

/-- Reads a statement. -/
def statement : Attempt (Desk H) Outcome := do
  modify fun desk => { desk with calculator := desk.calculator.clear }
  let code ← lookForWord
  if code = Code.newline then
    return .done
  let word ← readWord code
  let classes := word.operandClasses
  let operands ← classes.foldlM (operand environment mode) Operands.none
  if classes.contains .ownForm then
    ownForm environment mode operands word
  else
    Desk.expectEnd
    match operands.command? word with
    | some command => return .act command
    | none => throw .syntaxError

/-- Reads statements up to the first that does not lead on to another on its line. -/
def statements : (turns : Nat) → Attempt (Desk H) (Option Command)
  | 0 => throw .syntaxError
  | turns + 1 => do
      match ← statement environment mode with
      | .done => return none
      | .act command => return some command
      | .another => statements turns

/-- Reads a line, and yields the command that it comes to. -/
def line : Attempt (Desk H) (Option Command) := do
  statements environment mode (← turnsLeft)

end Statement
end HomeBasic
