import HomeBasic.BoundedStack
import HomeBasic.Console
import HomeBasic.Number.Operator
import HomeBasic.Scanner
import HomeBasic.Value

/-!
# The desk a line is read at

A line is read with a scanner, a stack of pending operations and the console. It
is read the same way whether it is only checked or carried out.

Main statements: what each step does to a desk, one equation a step (`look_apply`,
`expect_apply`, `push_apply`, …).
-/

namespace HomeBasic

/-- A line is only checked, or it is carried out. -/
inductive Mode
  | check
  | execute
  deriving DecidableEq, Repr, Inhabited

/-- An operand that waits for its right-hand side. -/
structure Pending where
  value : Value
  operator : Operator
  priority : Nat
  deriving DecidableEq, Repr, Inhabited

namespace Pending

/-- The entry that an evaluation opens with. -/
def sentinel : Pending := ⟨.number 0, .absent, 0⟩

/-- What a code in front of an operand leaves pending. -/
def ofCode? (code : Code) : Option Pending :=
  if code = Code.minus then some ⟨.number 0, .subtract, 9⟩
  else if code = Keyword.not.code then some ⟨.number (-1), .subtract, 4⟩
  else none

end Pending

/-- What a line is read with: the scanner, the pending operations, and the console. -/
structure Desk (H : Type) where
  scanner : Scanner
  calculator : BoundedStack Pending
  console : H

namespace Desk

variable {H : Type}

/-- A step of the scanner. -/
def scanning {α : Type} (step : Attempt Scanner α) : Attempt (Desk H) α :=
  Attempt.within (·.scanner) (fun scanner desk => { desk with scanner }) step

/-- A step of the console. -/
def consulting {α : Type} (step : Attempt H α) : Attempt (Desk H) α :=
  Attempt.within (·.console) (fun console desk => { desk with console }) step

/-- Moves to the next code and looks at it. -/
def look : Attempt (Desk H) Code :=
  scanning do
    modify Scanner.look
    return (← get).current

/-- Moves on by a code. -/
def advance : Attempt (Desk H) Unit :=
  scanning (modify Scanner.advance)

/-- Passes over a code that has to be there. -/
def expect (code : Code) : Attempt (Desk H) Unit :=
  scanning (Scanner.expect code)

/-- The line has to end here. -/
def expectEnd : Attempt (Desk H) Unit :=
  scanning Scanner.expectEnd

/-- Moves on by so many codes without looking at them. -/
def skip (count : Nat) : Attempt (Desk H) Unit :=
  scanning (modify (Scanner.skip · count))

/-- The name at the scanner and its use. -/
def readName : Attempt (Desk H) (Name × NameUse) := do
  let (use, length) := (← get).scanner.nameAhead
  return (← scanning (Scanner.readName length), use)

/-- Puts an operation on the stack. -/
def push (pending : Pending) : Attempt (Desk H) Unit := do
  let desk ← get
  let calculator ← Attempt.ofExcept (desk.calculator.push pending)
  set { desk with calculator }

/-- Leaves the stack as it was found if a step fails. -/
def restoring {α : Type} (step : Attempt (Desk H) α) : Attempt (Desk H) α := fun desk =>
  match step desk with
  | (.ok value, reached) => (.ok value, reached)
  | (.error fault, reached) =>
      (.error fault,
        { reached with calculator := reached.calculator.truncate desk.calculator.length })

/-! ## What the steps do -/

variable (desk : Desk H)

@[simp] theorem look_apply :
    look desk = (.ok desk.scanner.look.current, { desk with scanner := desk.scanner.look }) := rfl

@[simp] theorem advance_apply :
    advance desk = (.ok (), { desk with scanner := desk.scanner.advance }) := rfl

@[simp] theorem skip_apply (count : Nat) :
    skip count desk = (.ok (), { desk with scanner := desk.scanner.skip count }) := rfl

theorem expect_apply (code : Code) :
    expect code desk =
      if desk.scanner.look.current = code then
        (.ok (), { desk with scanner := desk.scanner.look.advance })
      else
        (.error .syntaxError, { desk with scanner := desk.scanner.look }) := by
  simp only [expect, scanning, Scanner.expect, Attempt.within_apply, Attempt.bind_apply,
    Attempt.modify_apply, Attempt.get_apply]
  split <;> rfl

theorem expectEnd_apply :
    expectEnd desk =
      if desk.scanner.look.current = Code.newline then
        (.ok (), { desk with scanner := desk.scanner.look })
      else
        (.error .syntaxError, { desk with scanner := desk.scanner.look }) := by
  simp only [expectEnd, scanning, Scanner.expectEnd, Attempt.within_apply, Attempt.bind_apply,
    Attempt.modify_apply, Attempt.get_apply, ite_not]
  split <;> rfl

theorem push_apply (pending : Pending) :
    push pending desk =
      match desk.calculator.push pending with
      | .ok calculator => (.ok (), { desk with calculator })
      | .error fault => (.error fault, desk) := by
  simp only [push, Attempt.bind_apply, Attempt.get_apply, Attempt.ofExcept_apply]
  cases desk.calculator.push pending <;> rfl

end Desk

end HomeBasic
