import HomeBasic.Statement

/-!
# Checking the edit line

A line is checked as it is typed: an optional line number, then nothing or a
statement. The verdict depends on the text and on the cursor alone, for nothing
that a line reads or changes is within reach of the check.
-/

namespace HomeBasic

/-- What is found out about an edit line. -/
structure Verdict where
  /-- The line number, zero for a direct line, or a fault and the byte it was found at. -/
  result : Except (Fault × Nat) Nat
  /-- The byte where the statement starts. -/
  body : Nat
  /-- The glyph at the cursor, if the scanner came so far. -/
  glyph : Option Glyph

namespace Verdict

/-- The glyph to show at the cursor. -/
def shownGlyph (verdict : Verdict) : Glyph :=
  verdict.glyph.getD .letter

/-- The line may be entered. -/
def accepted (verdict : Verdict) : Bool :=
  match verdict.result with
  | .ok _ => true
  | .error _ => false

end Verdict

namespace EditLine

/-- The number that digits denote, in the sixteen bits that hold a line number. -/
def wrappedNumber (digits : List Code) : Nat :=
  digits.foldl (fun number digit => (10 * number + digit.digitValue) % 65536) 0

/-- Reads the line number; a line that opens with no digit has none. -/
def readLineNumber {H : Type} : Attempt (Desk H) Nat := do
  if !(← Desk.look).isDigit then
    return 0
  let digits := (← get).scanner.rest.takeWhile Code.isDigit
  Desk.scanning (modify (·.pass digits.length))
  let number := wrappedNumber digits
  if 4 < digits.length ∨ number = 0 ∨ Line.maxNumber < number then
    throw .syntaxError
  else
    return number

/-- Checks a crunched edit line. A bad line number counts as a fault at the start of the line. -/
def check (config : Config) (edit : EditLine) : Verdict :=
  let desk : Desk NoConsole :=
    ⟨Scanner.ofEditLine edit, BoundedStack.empty config.calculatorDepth, {}⟩
  match readLineNumber desk with
  | (.error fault, desk) => ⟨.error (fault, 0), 0, desk.scanner.glyph⟩
  | (.ok number, desk) =>
      let body := desk.scanner.position
      match Statement.line (Environment.blank config) .check desk with
      | (.ok _, desk) => ⟨.ok number, body, desk.scanner.glyph⟩
      | (.error fault, desk) =>
          ⟨.error (fault, desk.scanner.position), body, desk.scanner.glyph⟩

/-- The bytes of the statement, without the end of the line. -/
def statement (edit : EditLine) (verdict : Verdict) : List Code :=
  edit.bytes.dropLast.drop verdict.body

end EditLine
end HomeBasic
