import HomeBasic.Attempt
import HomeBasic.Console
import HomeBasic.Value

/-!
# Printing

Everything a program shows is printed here, code by code. A display without room
is a fault, and what was printed before it stays.
-/

namespace HomeBasic
namespace Printing

variable {H : Type} [Console H]

/-- Prints a code. -/
def code (code : Code) : Attempt H Unit :=
  Attempt.orFault .displayFull (Console.print? code)

/-- Prints codes one after the other. -/
def codes : List Code → Attempt H Unit
  | [] => pure ()
  | first :: rest => do
      code first
      codes rest

/-- Starts a new line. -/
def newline : Attempt H Unit :=
  Attempt.orFault .displayFull Console.newline?

/-- Prints so many spaces. -/
def spaces (count : Nat) : Attempt H Unit :=
  codes (List.replicate count Code.space)

/-- Prints a number in decimal, or a text as it is. -/
def value (value : Value) : Attempt H Unit :=
  codes value.printed

/-- Goes to a column with spaces; it is not behind the print position. -/
def padTo (column : Nat) : Attempt H Unit := do
  spaces (column - Console.column (← get))

/-- Goes to the middle of the line, or from there on to the next line. -/
def comma (width : Nat) : Attempt H Unit := do
  if Console.column (← get) < width / 2 then padTo (width / 2) else newline

/-- Goes to a column of the line, counted modulo the width, or of the next line if it is past it. -/
def tab (width : Nat) (column : Int) : Attempt H Unit := do
  let column := (column % width).toNat
  if column < Console.column (← get) then
    newline
  padTo column

/-- Goes to a place on the display. -/
def moveTo (row column : Int) : Attempt H Unit :=
  if 0 ≤ row ∧ 0 ≤ column then
    Attempt.orFault .displayFull (Console.moveTo? row.toNat column.toNat)
  else
    throw .displayFull

/-- Prints listed lines, each on a line of its own. -/
def listings : List (List Code) → Attempt H Unit
  | [] => pure ()
  | listing :: rest => do
      codes listing
      newline
      listings rest

end Printing
end HomeBasic
