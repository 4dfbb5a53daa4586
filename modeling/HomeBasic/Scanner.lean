import HomeBasic.Attempt
import HomeBasic.EditLine
import HomeBasic.Function
import HomeBasic.Variables.Record

/-!
# The scanner

The scanner reads a line code by code and knows how far it has come. Spaces are
passed over, and it never moves past the end of the line, which the end of its
bytes counts as too. Over an edit line it watches for the cursor: the first time
it looks at or past the cursor decides the glyph shown there.

Main statements: looking passes over spaces and nothing else
(`look_rest_eq_drop`), and decides no glyph where there is no cursor to watch
(`glyph_look`).
-/

namespace HomeBasic

/-- A place in a line, with the bytes from there on. -/
structure Scanner where
  position : Nat
  rest : List Code
  /-- The byte at the cursor of an edit line. -/
  watched : Option Nat
  /-- The glyph at that cursor, once it is decided. -/
  glyph : Option Glyph
  /-- A statement word belongs at this place. -/
  wordExpected : Bool
  deriving DecidableEq, Repr, Inhabited

namespace Scanner

/-- A scanner at a position of bytes, with no cursor to watch. -/
def ofBytes (bytes : List Code) (position : Nat) : Scanner :=
  ⟨position, bytes.drop position, none, none, false⟩

/-- A scanner at the start of an edit line, watching for its cursor. -/
def ofEditLine (edit : EditLine) : Scanner :=
  ⟨0, edit.bytes, some edit.cursorByte, none, true⟩

/-- The code at the scanner. -/
def current (scanner : Scanner) : Code :=
  scanner.rest.headD Code.newline

/-- Moves on over codes without looking at them. -/
def pass (scanner : Scanner) (count : Nat) : Scanner :=
  { scanner with position := scanner.position + count, rest := scanner.rest.drop count }

/-- The number of codes left before the end of the line. -/
def codesLeft (scanner : Scanner) : Nat :=
  (scanner.rest.takeWhile (· != Code.newline)).length

/-- Passes over spaces. -/
def skipSpaces (scanner : Scanner) : Scanner :=
  scanner.pass (scanner.rest.takeWhile (· == Code.space)).length

/-- Decides the glyph at a watched cursor, if the scanner has come so far. -/
def noteCursor (scanner : Scanner) : Scanner :=
  match scanner.watched, scanner.glyph with
  | some cursor, none =>
      if cursor ≤ scanner.position then
        { scanner with glyph := some (if scanner.wordExpected then .keyword else .letter) }
      else
        scanner
  | _, _ => scanner

/-- Moves to the next code that is no space and looks at it. -/
def look (scanner : Scanner) : Scanner :=
  scanner.skipSpaces.noteCursor

/-- Moves on by one code, unless at the end of the line, and looks. -/
def advance (scanner : Scanner) : Scanner :=
  (scanner.pass (min 1 scanner.codesLeft)).look

/-- Moves on by so many codes, but not past the end of the line, without looking. -/
def skip (scanner : Scanner) (count : Nat) : Scanner :=
  scanner.pass (min count scanner.codesLeft)

/-- Moves to the end of the line. -/
def skipToEnd (scanner : Scanner) : Scanner :=
  scanner.pass scanner.codesLeft

/-- The use of the name at the scanner and its length, without what follows it. -/
def nameAhead (scanner : Scanner) : NameUse × Nat :=
  let length := 1 + (scanner.rest.tail.takeWhile Code.isNameCode).length
  let use := match scanner.rest.drop length with
    | first :: second :: _ =>
        if first = Code.dollar then
          if second = Code.leftParen then .textFunction else .text
        else if first = Code.leftParen then .array
        else .number
    | [first] =>
        if first = Code.dollar then .text
        else if first = Code.leftParen then .array
        else .number
    | [] => .number
  (use, length)

@[simp] theorem position_pass (scanner : Scanner) (count : Nat) :
    (scanner.pass count).position = scanner.position + count := rfl

@[simp] theorem rest_pass (scanner : Scanner) (count : Nat) :
    (scanner.pass count).rest = scanner.rest.drop count := rfl

@[simp] theorem rest_noteCursor (scanner : Scanner) : scanner.noteCursor.rest = scanner.rest := by
  unfold noteCursor
  repeat' split
  all_goals rfl

@[simp] theorem position_noteCursor (scanner : Scanner) :
    scanner.noteCursor.position = scanner.position := by
  unfold noteCursor
  repeat' split
  all_goals rfl

/-- Where no cursor is watched, no glyph is decided. -/
theorem glyph_look {scanner : Scanner} (unwatched : scanner.watched = none) :
    scanner.look.glyph = scanner.glyph := by
  simp [look, noteCursor, skipSpaces, pass, unwatched]

/-- Looking passes over the spaces and nothing else. -/
theorem look_rest_eq_drop (scanner : Scanner) :
    scanner.look.rest = scanner.rest.dropWhile (· == Code.space) := by
  simp only [look, rest_noteCursor, skipSpaces, rest_pass]
  induction scanner.rest with
  | nil => rfl
  | cons code rest inductionHypothesis =>
      cases blank : code == Code.space <;>
        simp [List.takeWhile, List.dropWhile, blank, inductionHypothesis]

/-! ## Reading -/

/-- Reads the digits of a number, as far as it fits a word. -/
def readDigits (size : WordSize) : List Code → Int → Attempt Scanner Int
  | [], value => pure value
  | digit :: digits, value => do
      let value ← Attempt.ofExcept (size.checked (10 * value + digit.digitValue))
      modify (·.pass 1)
      readDigits size digits value

/-- Reads the number at the scanner. It stops at the digit that would make it too large. -/
def readNumber (size : WordSize) : Attempt Scanner Int := do
  modify look
  readDigits size ((← get).rest.takeWhile Code.isDigit) 0

/-- Reads the string whose opening quote is at the scanner. -/
def readText : Attempt Scanner (List Code) := do
  let scanner ← get
  let text := scanner.rest.tail.takeWhile fun code => code != Code.quote && code != Code.newline
  let closing := scanner.pass (1 + text.length)
  set closing
  if closing.current = Code.quote then
    modify advance
    return text
  else
    throw .syntaxError

/-- The name at the scanner, if it is not too long. -/
def readName (length : Nat) : Attempt Scanner Name := do
  if maxNameLength < length then
    throw .syntaxError
  return (← get).rest.take length

/-- Passes over a code that has to be there. -/
def expect (code : Code) : Attempt Scanner Unit := do
  modify look
  if (← get).current = code then modify advance else throw .syntaxError

/-- The line has to end here. -/
def expectEnd : Attempt Scanner Unit := do
  modify look
  if (← get).current ≠ Code.newline then
    throw .syntaxError

end Scanner
end HomeBasic
