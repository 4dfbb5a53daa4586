import HomeBasic.Line

/-!
# The edit line

The line being typed: its codes with a cursor, the crunched form that is
scanned, and the place of a fault. The line is shown with a glyph at the cursor
and a marker at the fault, both inverted.
-/

namespace HomeBasic

/-- The glyph at the cursor: a statement word belongs there, or anything else does. -/
inductive Glyph
  | keyword
  | letter
  deriving DecidableEq, Repr, Inhabited

namespace Glyph

/-- An inverted K or L. -/
def code : Glyph → Code
  | keyword => 0xAB
  | letter => 0xAC

end Glyph

/-- The line being typed. -/
structure EditLine where
  text : List Code
  /-- The text column the next code goes to. -/
  cursor : Nat
  crunched : Crunched
  /-- The crunched byte at the cursor. -/
  cursorByte : Nat
  /-- The crunched byte where the statement starts. -/
  body : Nat
  /-- The text column of a fault. -/
  marker : Option Nat
  /-- The number of the line stored or recalled last. -/
  current : Nat
  deriving DecidableEq, Repr

namespace EditLine

/-- An edit line that nothing was typed into. -/
def empty : EditLine :=
  ⟨[], 0, Crunched.empty, 0, 0, none, 0⟩

/-- The bytes of the crunched line. -/
def bytes (edit : EditLine) : List Code :=
  edit.crunched.bytes

/-- The line holds nothing but spaces. -/
def isBlank (edit : EditLine) : Bool :=
  edit.text.all (· == Code.space)

/-- Types a code at the cursor. -/
def insert (edit : EditLine) (code : Code) : EditLine :=
  { edit with
    text := edit.text.take edit.cursor ++ code :: edit.text.drop edit.cursor
    cursor := edit.cursor + 1
    marker := none }

/-- Deletes the code before the cursor. -/
def backspace (edit : EditLine) : EditLine :=
  match edit.cursor with
  | 0 => { edit with marker := none }
  | cursor + 1 => { edit with text := edit.text.eraseIdx cursor, cursor, marker := none }

/-- Moves the cursor back by a code, unless it is at the start. -/
def left (edit : EditLine) : EditLine :=
  { edit with cursor := edit.cursor - 1 }

/-- Moves the cursor on by a code, unless it is at the end. -/
def right (edit : EditLine) : EditLine :=
  if edit.cursor < edit.text.length then { edit with cursor := edit.cursor + 1 } else edit

/-- Crunches the text as it stands. -/
def refresh (edit : EditLine) : EditLine :=
  let crunched := crunch edit.text
  { edit with crunched, cursorByte := crunched.byteAtColumn edit.cursor }

/-- Puts a text in place of the line, the cursor at its end. -/
def setText (edit : EditLine) (text : List Code) : EditLine :=
  { edit with text, cursor := text.length, marker := none }.refresh

/-- Takes everything out of the line. -/
def clear (edit : EditLine) : EditLine :=
  edit.setText []

/-- Marks the text column that a crunched byte came from. -/
def mark (edit : EditLine) (position : Nat) : EditLine :=
  { edit with marker := some (edit.crunched.column position) }

/-- Marks a text column. -/
def markColumn (edit : EditLine) (column : Nat) : EditLine :=
  { edit with marker := some column }

/-- The code that marks a fault, an inverted S. -/
def faultMark : Code := 0xB3

/-- What is shown in front of a text column. -/
def decoration (edit : EditLine) (glyph : Glyph) (column : Nat) : List Code :=
  (if edit.marker = some column then [faultMark] else []) ++
    (if edit.cursor = column then [glyph.code] else [])

/-- The codes from a column on, with the cursor and the marker among them. -/
def renderFrom (edit : EditLine) (glyph : Glyph) : Nat → List Code → List Code
  | column, [] => edit.decoration glyph column
  | column, code :: rest =>
      edit.decoration glyph column ++ code :: renderFrom edit glyph (column + 1) rest

/-- The line as it is shown. -/
def render (edit : EditLine) (glyph : Glyph) : List Code :=
  edit.renderFrom glyph 0 edit.text

@[simp] theorem text_setText (edit : EditLine) (text : List Code) :
    (edit.setText text).text = text := rfl

@[simp] theorem cursor_setText (edit : EditLine) (text : List Code) :
    (edit.setText text).cursor = text.length := rfl

/-- Typing a code and deleting it gives back the text. -/
theorem text_backspace_insert (edit : EditLine) (code : Code)
    (inside : edit.cursor ≤ edit.text.length) :
    (edit.insert code).backspace.text = edit.text := by
  have length : (edit.text.take edit.cursor).length = edit.cursor := by simp [inside]
  simp only [insert, backspace]
  rw [List.eraseIdx_append_of_length_le (by omega)]
  simp [length]

end EditLine
end HomeBasic
