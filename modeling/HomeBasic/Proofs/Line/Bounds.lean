import HomeBasic.Proofs.Line.Checking
import HomeBasic.Proofs.Line.Cutting
import HomeBasic.Proofs.Scanner.Movement
import HomeBasic.Proofs.Statement.Bounds

/-!
# Bounds of the edit line

Codes are typed and deleted at the cursor, which stays within the text (`Placed`). The line
is checked with the names cut out of its own bytes (`checkedCheck_eq`). The statement that is
entered is cut out of the crunched line between the place where the check found it to start
and the end of the line (`checkedStatement_eq`).
-/

namespace HomeBasic
namespace EditLine

open Checked

variable {edit : EditLine} {config : Config}

/-! ## With everything checked -/

/-- Types a code at the cursor. -/
def checkedInsert (edit : EditLine) (code : Code) : Option EditLine := do
  let text ← splice? edit.text edit.cursor edit.cursor [code]
  return { edit with text, cursor := edit.cursor + 1, marker := none }

/-- Deletes the code before the cursor. -/
def checkedBackspace (edit : EditLine) : Option EditLine :=
  match edit.cursor with
  | 0 => some { edit with marker := none }
  | cursor + 1 => do
      let _ ← edit.text[cursor]?
      return { edit with text := edit.text.eraseIdx cursor, cursor, marker := none }

/-- Crunches the text as it stands. -/
def checkedRefresh (edit : EditLine) : Option EditLine := do
  let crunched ← checkedCrunch edit.text
  return { edit with crunched, cursorByte := crunched.byteAtColumn edit.cursor }

/-- Puts a text in place of the line, the cursor at its end. -/
def checkedSetText (edit : EditLine) (text : List Code) : Option EditLine :=
  { edit with text, cursor := text.length, marker := none }.checkedRefresh

/-- What is found out about the line, with the names in it cut out of its bytes. -/
def checkedCheck (config : Config) (edit : EditLine) : Option Verdict :=
  let desk : Desk NoConsole := ⟨.ofEditLine edit, .empty config.calculatorDepth, {}⟩
  match readLineNumber desk with
  | (.error fault, desk) => some ⟨.error (fault, 0), 0, desk.scanner.glyph⟩
  | (.ok number, desk) => do
      let body := desk.scanner.position
      match ← Statement.checkedLine edit.bytes (Environment.blank config) .check desk with
      | (.ok _, desk) => return ⟨.ok number, body, desk.scanner.glyph⟩
      | (.error fault, desk) =>
          return ⟨.error (fault, desk.scanner.position), body, desk.scanner.glyph⟩

/-- The bytes of the statement, without the end of the line. -/
def checkedStatement (edit : EditLine) (verdict : Verdict) : Option (List Code) := do
  let last ← difference? edit.bytes.length 1
  slice? edit.bytes verdict.body last

theorem checkedRefresh_eq (edit : EditLine) : edit.checkedRefresh = some edit.refresh := by
  rw [checkedRefresh, checkedCrunch_eq]
  rfl

theorem checkedSetText_eq (edit : EditLine) (text : List Code) :
    edit.checkedSetText text = some (edit.setText text) :=
  checkedRefresh_eq _

/-! ## The cursor -/

/-- The cursor is at a code of the text, or behind the last. -/
def Placed (edit : EditLine) : Prop :=
  edit.cursor ≤ edit.text.length

theorem placed_setText (edit : EditLine) (text : List Code) : (edit.setText text).Placed :=
  Nat.le_refl text.length

theorem placed_clear (edit : EditLine) : edit.clear.Placed :=
  edit.placed_setText []

namespace Placed

variable (placed : edit.Placed)
include placed

theorem checkedInsert (code : Code) : edit.checkedInsert code = some (edit.insert code) := by
  rw [EditLine.checkedInsert, splice?_eq (Nat.le_refl _) placed]
  simp [EditLine.insert]

theorem checkedBackspace : edit.checkedBackspace = some edit.backspace := by
  have placed : edit.cursor ≤ edit.text.length := placed
  unfold EditLine.checkedBackspace EditLine.backspace
  rcases here : edit.cursor with _ | cursor
  · rfl
  · rw [here] at placed
    simp [List.getElem?_eq_getElem placed]

theorem insert (code : Code) : (edit.insert code).Placed := by
  have placed : edit.cursor ≤ edit.text.length := placed
  simp only [Placed, EditLine.insert, List.length_append, List.length_take, List.length_cons,
    List.length_drop]
  omega

theorem backspace : edit.backspace.Placed := by
  have placed : edit.cursor ≤ edit.text.length := placed
  unfold EditLine.backspace
  split
  next here => simp [Placed, here]
  next cursor here =>
    rw [here] at placed
    simp only [Placed, List.length_eraseIdx_of_lt placed]
    omega

theorem left : edit.left.Placed :=
  Nat.le_trans (Nat.sub_le _ _) placed

theorem right : edit.right.Placed := by
  unfold EditLine.right
  split
  next inside => exact inside
  next => exact placed

end Placed

/-! ## The statement -/

theorem digits_le_codesLeft (scanner : Scanner) :
    (scanner.rest.takeWhile Code.isDigit).length ≤ scanner.codesLeft :=
  Scanner.length_takeWhile_le fun code digit => bne_iff_ne.mpr fun same => by
    rw [same] at digit
    exact absurd digit (by decide)

/-- Reading the number of a line moves on over codes of the line. -/
theorem follows_readLineNumber (desk : Desk NoConsole) :
    (readLineNumber desk).2.scanner.Follows desk.scanner := by
  have looked := desk.scanner.follows_look
  have passed := (Scanner.Follows.of_pass (digits_le_codesLeft desk.scanner.look)).trans looked
  unfold readLineNumber
  rw [Attempt.bind_apply, Desk.look_apply]
  dsimp only
  split
  · exact looked
  · rw [Attempt.bind_apply, Attempt.get_apply]
    dsimp only
    rw [Attempt.bind_apply]
    dsimp only [Desk.scanning, Attempt.within_apply, Attempt.modify_apply]
    split <;> exact passed

/-- On a display with a column at least, the check of a line stays within it. -/
theorem checkedCheck_eq (wide : 1 ≤ config.width) (edit : EditLine) :
    edit.checkedCheck config = some (edit.check config) := by
  let first : Desk NoConsole := ⟨.ofEditLine edit, .empty config.calculatorDepth, {}⟩
  have follows := follows_readLineNumber first
  unfold checkedCheck check
  dsimp only
  generalize readLineNumber first = outcome at follows ⊢
  rcases outcome with ⟨fault | number, desk⟩
  · rfl
  · have aligned : desk.Over edit.bytes := (Scanner.over_ofEditLine edit).follows follows
    have bounded : Desk.Bounded edit.bytes
        (Statement.checkedLine edit.bytes (.blank config) .check : Trial (Desk NoConsole) _)
        (Statement.line (.blank config) .check) := Statement.bounded_line wide
    have read := (bounded desk aligned).succeeds
    dsimp only
    rw [read]
    rcases Statement.line (.blank config) .check desk with ⟨fault | found, reached⟩ <;> rfl

/-- The statement starts within the line. -/
theorem body_check_le (config : Config) (edit : EditLine) :
    (edit.check config).body ≤ (Scanner.ofEditLine edit).codesLeft := by
  let first : Desk NoConsole := ⟨.ofEditLine edit, .empty config.calculatorDepth, {}⟩
  have follows := follows_readLineNumber first
  rw [check_apply]
  change (match readLineNumber first with
    | (.error fault, desk) => Verdict.mk (.error (fault, 0)) 0 desk.scanner.glyph
    | (.ok number, desk) => verdictAt config number desk).body ≤ _
  generalize readLineNumber first = outcome at follows ⊢
  rcases outcome with ⟨fault | number, desk⟩
  · exact Nat.zero_le _
  · obtain ⟨count, inside, position, _⟩ := follows
    have position : desk.scanner.position = count := position.trans (Nat.zero_add count)
    dsimp only
    rw [body_verdictAt, position]
    exact inside

/-- The statement of a crunched line is a slice of its bytes. -/
theorem checkedStatement_eq (crunched : edit.crunched = crunch edit.text)
    (oneLine : Code.newline ∉ edit.text) :
    edit.checkedStatement (edit.check config) = some (edit.statement (edit.check config)) := by
  obtain ⟨front, bytes, absent⟩ := crunch_bytes oneLine
  have bytes : edit.bytes = front ++ [Code.newline] := by rw [EditLine.bytes, crunched, bytes]
  have line : (Scanner.ofEditLine edit).line = front := Scanner.line_eq bytes absent rfl
  have body : (edit.check config).body ≤ front.length := by
    rw [← line]
    exact body_check_le config edit
  have length : edit.bytes.length = front.length + 1 := by
    rw [bytes, List.length_append, List.length_singleton]
  rw [checkedStatement, statement, difference?_eq (by omega), List.dropLast_eq_take]
  exact slice?_eq (by omega) (Nat.sub_le _ _)

end EditLine
end HomeBasic
