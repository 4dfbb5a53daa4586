import HomeBasic.Verdict
import HomeBasic.Program

/-!
# The state of a machine

A machine holds the program, its variables, a page of memory, the returns from
subroutines, the place of the next `DATA` item, and the edit line. It is editing,
or on its way through a direct line or a program, where it may also be waiting
for an entry or for time to pass.
-/

namespace HomeBasic

/-- Where the next `READ` looks: from a line on, or at an item of that line. -/
structure DataPointer where
  line : Nat
  /-- The place of the item behind the start of the statement. -/
  offset : Option Nat
  deriving DecidableEq, Repr, Inhabited

namespace DataPointer

/-- Looks for `DATA` from a line on. -/
def fromLine (line : Nat) : DataPointer := ⟨line, none⟩

end DataPointer

/-- What a machine is doing. -/
inductive Phase
  /-- It takes keys for the edit line. -/
  | editing
  /-- It is about to carry out a direct statement. -/
  | direct (statement : List Code)
  /-- It is about to go on to a line of the program. -/
  | running
  /-- It takes keys for an `INPUT`. -/
  | entering (target : Target)
  /-- It lets time pass, with or without a tone, in a program or in a direct line. -/
  | pausing (deadline : Nat) (sounding inProgram : Bool)
  deriving DecidableEq, Repr, Inhabited

/-- A machine with its console. -/
structure Machine (H : Type) where
  config : Config
  program : Program
  variableStore : Variables
  memory : Array Code
  returns : BoundedStack Nat
  data : DataPointer
  edit : EditLine
  /-- The glyph that the last check of the edit line decided on. -/
  glyph : Option Glyph
  console : H
  phase : Phase
  /-- The line being carried out, zero for a direct line. -/
  line : Nat
  /-- A jump that has been asked for; a jump to zero ends the program. -/
  jump : Option Nat
  /-- The line that `CONT` goes on at, zero if there is none. -/
  resumeLine : Nat
  /-- The time on the clock when the machine was started. -/
  started : Nat

namespace Machine

variable {H : Type}

/-- What expressions may read. -/
def environment (machine : Machine H) : Environment :=
  { config := machine.config
    variableStore := machine.variableStore
    memory := machine.memory
    started := machine.started }

/-- A step of the variable store. -/
def onVariables {α : Type} (step : Attempt Variables α) : Attempt (Machine H) α :=
  Attempt.within (·.variableStore)
    (fun variableStore machine => { machine with variableStore }) step

/-- A step of the console. -/
def onConsole {α : Type} (step : Attempt H α) : Attempt (Machine H) α :=
  Attempt.within (·.console) (fun console machine => { machine with console }) step

/-- Changes the console. -/
def tellConsole (change : H → H) : Attempt (Machine H) Unit :=
  modify fun machine => { machine with console := change machine.console }

/-- Reads a line with a scanner at some place, with nothing pending. -/
def atDesk {α : Type} (scanner : Scanner) (step : Environment → Attempt (Desk H) α) :
    Attempt (Machine H) α := fun machine =>
  let calculator := BoundedStack.empty machine.config.calculatorDepth
  let (result, desk) := step machine.environment ⟨scanner, calculator, machine.console⟩
  (result, { machine with console := desk.console })

/-- Asks for a jump. -/
def goto (line : Nat) (machine : Machine H) : Machine H :=
  { machine with jump := some line }

/-- The number of the line after the one being carried out, zero if there is none. -/
def nextLineNumber (machine : Machine H) : Nat :=
  if machine.line = 0 then 0 else machine.program.firstFrom (Line.numberAfter machine.line)

/-- Clears the variables, and with them the returns, the `DATA` pointer and the place to go on. -/
def clearVariables (machine : Machine H) : Machine H :=
  { machine with
    variableStore := machine.variableStore.clear
    returns := machine.returns.clear
    data := .fromLine 0
    resumeLine := 0 }

/-- The program as it is listed, a line to a row. -/
def listing (machine : Machine H) : String :=
  String.join (machine.program.lines.map fun line => line.text machine.config.word ++ "\n")

end Machine
end HomeBasic
