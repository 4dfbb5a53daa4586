import HomeBasic.Proofs.Line.Bounds
import HomeBasic.Proofs.Line.Columns

/-!
# Editing and showing a line

The edit line is a text with a cursor in it. Taken as the codes behind the cursor, nearest
first, and those ahead of it, typing and deleting change the front of one list, and the
cursor moves by handing a code from one to the other.

The line is shown with its glyph put in at the cursor. A fault puts in one mark more, at the
column it was found at, which is a column of the text or its end.

Main statements: `plain_changed`, `render_unmarked`, `render_marked`.
-/

namespace HomeBasic

/-- A text with a cursor in it: the codes behind the cursor, nearest first, and those ahead. -/
structure CursorText where
  behind : List Code
  ahead : List Code
  deriving DecidableEq, Repr

namespace CursorText

/-- The text, without the cursor. -/
def text (plain : CursorText) : List Code :=
  plain.behind.reverse ++ plain.ahead

/-- The column of the cursor. -/
def cursor (plain : CursorText) : Nat :=
  plain.behind.length

/-- A text with the cursor at its end. -/
def ended (text : List Code) : CursorText :=
  ⟨text.reverse, []⟩

/-- What may be done to a text at its cursor. -/
inductive Change
  | insert (code : Code)
  | deleteLeft
  | left
  | right
  | clear
  /-- Another text is brought in place of it. -/
  | setText (text : List Code)
  deriving DecidableEq, Repr

/-- The text after a change. -/
def apply (plain : CursorText) : Change → CursorText
  | .insert code => ⟨code :: plain.behind, plain.ahead⟩
  | .deleteLeft => ⟨plain.behind.tail, plain.ahead⟩
  | .left =>
      match plain.behind with
      | [] => plain
      | code :: behind => ⟨behind, code :: plain.ahead⟩
  | .right =>
      match plain.ahead with
      | [] => plain
      | code :: ahead => ⟨code :: plain.behind, ahead⟩
  | .clear => ended []
  | .setText text => ended text

end CursorText

namespace EditLine

open CursorText (Change)

variable {edit : EditLine} {config : Config}

/-! ## Editing -/

/-- The text of the line with its cursor. -/
def plain (edit : EditLine) : CursorText :=
  ⟨(edit.text.take edit.cursor).reverse, edit.text.drop edit.cursor⟩

/-- The line after a change. -/
def changed (edit : EditLine) : Change → EditLine
  | .insert code => edit.insert code
  | .deleteLeft => edit.backspace
  | .left => edit.left
  | .right => edit.right
  | .clear => edit.clear
  | .setText text => edit.setText text

@[simp] theorem text_plain (edit : EditLine) : edit.plain.text = edit.text := by
  simp [plain, CursorText.text]

theorem cursor_plain (placed : edit.Placed) : edit.plain.cursor = edit.cursor := by
  rw [plain, CursorText.cursor, List.length_reverse, List.length_take, Nat.min_eq_left placed]

/-- A line whose text is cut at the cursor. -/
theorem plain_of_append {front rest : List Code} (text : edit.text = front ++ rest)
    (cursor : edit.cursor = front.length) : edit.plain = ⟨front.reverse, rest⟩ := by
  rw [plain, text, cursor, List.take_left, List.drop_left]

/-- The text is cut at the cursor. -/
theorem exists_append (placed : edit.Placed) :
    ∃ front rest, edit.text = front ++ rest ∧ edit.cursor = front.length :=
  ⟨edit.text.take edit.cursor, edit.text.drop edit.cursor, (List.take_append_drop _ _).symm,
    (List.length_take_of_le placed).symm⟩

/-- The line is changed as its text with the cursor is. -/
theorem plain_changed (placed : edit.Placed) (change : Change) :
    (edit.changed change).plain = edit.plain.apply change := by
  obtain ⟨front, rest, text, cursor⟩ := exists_append placed
  rw [plain_of_append text cursor]
  cases change with
  | insert code =>
      rw [changed, @plain_of_append (edit.insert code) (front ++ [code]) rest
        (by simp [insert, text, cursor]) (by simp [insert, cursor])]
      simp [CursorText.apply]
  | deleteLeft =>
      rcases List.eq_nil_or_concat front with rfl | ⟨fewer, code, rfl⟩
      · have first : edit.cursor = 0 := cursor
        exact @plain_of_append edit.backspace [] rest (by simp [backspace, first, text])
          (by simp [backspace, first])
      · have later : edit.cursor = fewer.length + 1 := by simp [cursor]
        rw [changed, @plain_of_append edit.backspace fewer rest
          (by simp [backspace, later, text, List.eraseIdx_append_of_length_le])
          (by simp [backspace, later])]
        simp [CursorText.apply]
  | left =>
      rcases List.eq_nil_or_concat front with rfl | ⟨fewer, code, rfl⟩
      · exact plain_of_append text (by simp [changed, left, cursor])
      · rw [changed, @plain_of_append edit.left fewer (code :: rest) (by simp [left, text])
          (by simp [left, cursor])]
        simp [CursorText.apply]
  | right =>
      cases rest with
      | nil =>
          have last : ¬edit.cursor < edit.text.length := by simp [text, cursor]
          rw [changed, right, if_neg last]
          exact plain_of_append text cursor
      | cons code rest =>
          have more : edit.cursor < edit.text.length := by simp [text, cursor]
          rw [changed, right, if_pos more]
          refine (@plain_of_append _ (front ++ [code]) rest (by simp [text])
            (by simp [cursor])).trans ?_
          simp [CursorText.apply]
  | clear => exact @plain_of_append edit.clear [] [] rfl rfl
  | setText text => exact plain_of_append (by simp [changed]) rfl

/-! ## Showing -/

section
variable {glyph : Glyph} {start : Nat} {codes : List Code}

theorem renderFrom_of_none
    (plain : ∀ column, start ≤ column → edit.decoration glyph column = []) :
    edit.renderFrom glyph start codes = codes := by
  induction codes generalizing start with
  | nil => exact plain start (Nat.le_refl _)
  | cons code codes inductionHypothesis =>
      rw [renderFrom, plain start (Nat.le_refl _), List.nil_append,
        inductionHypothesis fun column later => plain column (Nat.le_of_succ_le later)]

/-- What is put in at a single column. -/
theorem renderFrom_of_one {index : Nat} {shown : Code} (inside : index ≤ codes.length)
    (here : edit.decoration glyph (start + index) = [shown])
    (elsewhere : ∀ column, start ≤ column → column ≠ start + index →
      edit.decoration glyph column = []) :
    edit.renderFrom glyph start codes = codes.insertIdx index shown := by
  induction codes generalizing start index with
  | nil =>
      obtain rfl := Nat.le_zero.mp inside
      exact here
  | cons code codes inductionHypothesis =>
      cases index with
      | zero =>
          rw [renderFrom, ← Nat.add_zero start, here, renderFrom_of_none fun column later =>
            elsewhere column (by omega) (by omega)]
          rfl
      | succ index =>
          rw [renderFrom, elsewhere start (Nat.le_refl _) (by omega), List.nil_append,
            List.insertIdx_succ_cons, inductionHypothesis (Nat.le_of_succ_le_succ inside)
              (by rwa [Nat.add_right_comm]) fun column later other =>
                elsewhere column (by omega) (by omega)]

/-- What is put in at the columns of the mark and of the cursor. -/
theorem renderFrom_of_marked {mark index : Nat} (markInside : mark ≤ codes.length)
    (inside : index ≤ codes.length) (marked : edit.marker = some (start + mark))
    (cursor : edit.cursor = start + index) :
    edit.renderFrom glyph start codes =
      (codes.insertIdx index glyph.code).insertIdx (if mark ≤ index then mark else mark + 1)
        faultMark := by
  induction codes generalizing start mark index with
  | nil =>
      obtain rfl := Nat.le_zero.mp markInside
      obtain rfl := Nat.le_zero.mp inside
      simp [renderFrom, decoration, marked, cursor]
  | cons code codes inductionHypothesis =>
      rw [renderFrom]
      rcases mark with _ | mark <;> rcases index with _ | index
      · rw [renderFrom_of_none fun column later => by
          simp [decoration, marked, cursor, Nat.ne_of_lt later]]
        simp [decoration, marked, cursor]
      · have onward := @renderFrom_of_one edit glyph (start + 1) codes index glyph.code
          (Nat.le_of_succ_le_succ inside)
          (by rw [decoration, if_neg (by simp [marked]; omega), if_pos (by omega)]; rfl)
          fun column later other => by
            rw [decoration, if_neg (by simp [marked]; omega), if_neg (by omega)]
            rfl
        rw [onward]
        simp [decoration, marked, cursor]
      · have onward := @renderFrom_of_one edit glyph (start + 1) codes mark faultMark
          (Nat.le_of_succ_le_succ markInside)
          (by rw [decoration, if_pos (by simp [marked]; omega), if_neg (by omega)]; rfl)
          fun column later other => by
            rw [decoration, if_neg (by simp [marked]; omega), if_neg (by omega)]
            rfl
        rw [onward]
        simp [decoration, marked, cursor]
      · rw [inductionHypothesis (Nat.le_of_succ_le_succ markInside)
          (Nat.le_of_succ_le_succ inside) (by rw [marked, Nat.add_right_comm, Nat.add_assoc])
          (by rw [cursor, Nat.add_right_comm, Nat.add_assoc])]
        by_cases first : mark ≤ index
        · simp [decoration, marked, cursor, first]
        · simp [decoration, marked, cursor, first]

end

/-- Without a mark the line is shown with its glyph, and as it is otherwise. -/
theorem render_unmarked (placed : edit.Placed) (unmarked : edit.marker = none) (glyph : Glyph) :
    edit.render glyph = edit.text.insertIdx edit.cursor glyph.code :=
  renderFrom_of_one placed (by simp [decoration, unmarked])
    fun column _ other => by simpa [decoration, unmarked, eq_comm] using other

/-- With a mark the line is shown with the mark as well, in front of the glyph where they are at
one column. -/
theorem render_marked {column : Nat} (placed : edit.Placed) (marked : edit.marker = some column)
    (inside : column ≤ edit.text.length) (glyph : Glyph) :
    edit.render glyph =
      (edit.text.insertIdx edit.cursor glyph.code).insertIdx
        (if column ≤ edit.cursor then column else column + 1) faultMark :=
  renderFrom_of_marked inside placed (by rw [marked, Nat.zero_add]) (Nat.zero_add _).symm

end EditLine

/-! ## Columns of a text -/

/-- The byte that ends a crunched line stands at the end of its text. -/
theorem getLast?_columns (text : List Code) :
    (crunch text).columns.getLast? = some text.length := by
  obtain ⟨lead, rest, rfl, -, laid⟩ := Crunch.laidBehind_line text 0
  rw [Crunched.columns, crunch, List.getLast?_map, laid.last]
  simp

theorem pairwise_columns (text : List Code) : (crunch text).columns.Pairwise (· < ·) :=
  let ⟨_, _, _, _, laid⟩ := Crunch.laidBehind_line text 0
  laid.increasing.1

/-- Whatever byte of a crunched text is asked for, its column is one of the text or its end. -/
theorem column_crunch_le (text : List Code) (position : Nat) :
    (crunch text).column position ≤ text.length := by
  have ends := getLast?_columns text
  have increasing := pairwise_columns text
  have within : ∀ column ∈ (crunch text).columns, column ≤ text.length := by
    obtain ⟨front, split⟩ := List.getLast?_eq_some_iff.mp ends
    rw [split, List.pairwise_append] at increasing
    rw [split]
    intro column member
    rcases List.mem_append.mp member with before | last
    · exact Nat.le_of_lt (increasing.2.2 column before _ (List.mem_singleton_self _))
    · exact Nat.le_of_eq (List.mem_singleton.mp last)
  rw [Crunched.column, ends, Option.getD_some]
  cases found : (crunch text).columns[position]? with
  | none => exact Nat.le_refl _
  | some column => exact within column (List.mem_of_getElem? found)

end HomeBasic
