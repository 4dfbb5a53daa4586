import HomeBasic.Code

/-!
# The display grid

A page of character cells with a print position. Printing runs along the rows;
one place past the last cell the page is full and takes nothing more until it
is cleared or the position is moved back.

Main statements: printing is refused exactly when no row is left
(`print?_eq_none_iff`), and moving exactly when there is no such cell
(`moveTo?_eq_none_iff`).
-/

namespace HomeBasic

/-- A page of display codes, row by row, and the place where the next one goes. -/
structure Screen where
  width : Nat
  height : Nat
  cells : Array Code
  row : Nat
  column : Nat
  deriving DecidableEq, Repr

namespace Screen

/-- An empty page. -/
def blank (width height : Nat) : Screen :=
  ⟨width, height, Array.replicate (width * height) Code.space, 0, 0⟩

/-- Empties the page and goes back to its first cell. -/
def clear (screen : Screen) : Screen :=
  blank screen.width screen.height

/-- No row is left to print in. -/
def isFull (screen : Screen) : Bool :=
  screen.height ≤ screen.row

/-- Prints a code and moves on, unless the page is full. -/
def print? (screen : Screen) (code : Code) : Option Screen :=
  if screen.isFull then
    none
  else
    let cells := screen.cells.setIfInBounds (screen.row * screen.width + screen.column) code
    if screen.column + 1 = screen.width then
      some { screen with cells, row := screen.row + 1, column := 0 }
    else
      some { screen with cells, column := screen.column + 1 }

/-- Goes to the start of the next row, unless the page is full. -/
def newline? (screen : Screen) : Option Screen :=
  if screen.isFull then none
  else some { screen with row := screen.row + 1, column := 0 }

/-- Moves the print position to a cell of the page. -/
def moveTo? (screen : Screen) (row column : Nat) : Option Screen :=
  if row < screen.height ∧ column < screen.width then some { screen with row, column }
  else none

/-- The rows of the page from the top. -/
def rows (screen : Screen) : List (List Code) :=
  (List.range screen.height).map fun row =>
    (screen.cells.extract (row * screen.width) ((row + 1) * screen.width)).toList

/-- Characters without the blanks at their end. -/
def trimEnd (characters : List Char) : List Char :=
  (characters.reverse.dropWhile fun character => character == ' ' || character == '\n').reverse

/-- The page as text, without the spaces that end a row or the rows that end the page. -/
def text (screen : Screen) : String :=
  let rows := screen.rows.map fun row => trimEnd (row.map Code.toChar)
  String.ofList (trimEnd (List.intercalate ['\n'] rows))

/-- Printing is refused exactly when no row is left. -/
theorem print?_eq_none_iff {screen : Screen} {code : Code} :
    screen.print? code = none ↔ screen.height ≤ screen.row := by
  unfold print? isFull
  split
  · simp_all
  · split <;> simp_all

/-- Moving is refused exactly when there is no such cell. -/
theorem moveTo?_eq_none_iff {screen : Screen} {row column : Nat} :
    screen.moveTo? row column = none ↔ screen.height ≤ row ∨ screen.width ≤ column := by
  unfold moveTo?
  split <;> simp <;> omega

/-- Printing keeps the size of the page. -/
theorem size_of_print? {screen printed : Screen} {code : Code}
    (result : screen.print? code = some printed) :
    printed.width = screen.width ∧ printed.height = screen.height ∧
      printed.cells.size = screen.cells.size := by
  unfold print? at result
  split at result
  · contradiction
  · split at result <;> cases result <;> simp

end Screen
end HomeBasic
