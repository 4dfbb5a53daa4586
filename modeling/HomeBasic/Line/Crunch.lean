import HomeBasic.Number.Decimal
import HomeBasic.Token

/-!
# Crunched lines

Crunching a typed line drops its spaces and puts one byte for each word, except
in strings and remarks. Every byte remembers the text column it came from, and
one last byte ends the line. A leading line number stays as digits.

Words match whole: not right after a name code of the statement, not right
before a dot, and all the letters that stand together. Symbols match anywhere.
-/

namespace HomeBasic

/-- A crunched line: its bytes, each with the column of the text it came from. -/
structure Crunched where
  cells : List (Code × Nat)
  deriving DecidableEq, Repr, Inhabited

namespace Crunched

/-- A line that has not been crunched yet. -/
def empty : Crunched := ⟨[]⟩

/-- The bytes, the end of the line included. -/
def bytes (crunched : Crunched) : List Code :=
  crunched.cells.map Prod.fst

/-- The text column of each byte; the end of the line stands at the end of the text. -/
def columns (crunched : Crunched) : List Nat :=
  crunched.cells.map Prod.snd

/-- The text column of a byte, and of the last byte for any position after it. -/
def column (crunched : Crunched) (position : Nat) : Nat :=
  (crunched.columns[position]?).getD (crunched.columns.getLast?.getD 0)

/-- The first byte that comes from a text column or from one after it, or else the last. -/
def byteAtColumn (crunched : Crunched) (column : Nat) : Nat :=
  (crunched.columns.findIdx? (column ≤ ·)).getD (crunched.cells.length - 1)

end Crunched

namespace Crunch

/-- What the next code of a typed line belongs to. -/
inductive Reading
  /-- A statement, at the place of its first word or further on. -/
  | statement (atStart : Bool)
  /-- A string, up to its closing quote. -/
  | string
  /-- The spaces between `REM` and its text. -/
  | remarkGap
  /-- The text of a remark. -/
  | remark
  deriving DecidableEq, Repr

/-- What a code belongs to that follows a token. -/
def Reading.after (token : Token) : Reading :=
  if token = .word .rem then .remarkGap else .statement (token = .keyword .then)

/-- The symbol that a text opens with. -/
def symbolAt? : List Code → Option Keyword
  | first :: second :: _ =>
      if first = Code.star ∧ second = Code.star then some .power
      else if first = Code.less ∧ second = Code.equals then some .lessEqual
      else if first = Code.greater ∧ second = Code.equals then some .greaterEqual
      else if first = Code.less ∧ second = Code.greater then some .notEqual
      else none
  | _ => none

/-- The word that a text opens with: all letters that stand together, with no dot behind them. -/
def wordAt? (text : List Code) : Option (Token × Nat) :=
  let letters := text.takeWhile Code.isLetter
  if letters.isEmpty || (text.drop letters.length).head? == some Code.dot then
    none
  else
    (Token.ofCodes? letters).map fun token => (token, letters.length)

/-- The token that a text opens with and the codes it takes. No word follows a name code. -/
def tokenAt? (afterName : Bool) (text : List Code) : Option (Token × Nat) :=
  match symbolAt? text with
  | some symbol => some (.keyword symbol, 2)
  | none => if afterName then none else wordAt? text

/--
Crunches a statement from a column on. `skip` codes still belong to the token
before; `afterName` says whether the code before was one of a name.
-/
def body : List Code → Nat → Nat → Bool → Reading → List (Code × Nat)
  | [], column, _, _, _ => [(Code.newline, column)]
  | code :: rest, column, skip + 1, _, reading =>
      body rest (column + 1) skip (Code.isNameCode code) reading
  | code :: rest, column, 0, afterName, reading =>
      let onward := fun skip reading =>
        body rest (column + 1) skip (Code.isNameCode code) reading
      match reading with
      | .remark => (code, column) :: onward 0 .remark
      | .remarkGap =>
          if code = Code.space then onward 0 .remarkGap
          else (code, column) :: onward 0 .remark
      | .string =>
          (code, column) ::
            onward 0 (if code = Code.quote then .statement false else .string)
      | .statement atStart =>
          if code = Code.space then
            onward 0 (.statement atStart)
          else if code = Code.quote then
            (code, column) :: onward 0 .string
          else if atStart ∧ code = Code.question then
            (StatementWord.print.code, column) :: onward 0 (.statement false)
          else
            match tokenAt? afterName (code :: rest) with
            | some (token, length) =>
                (token.code, column) :: onward (length - 1) (.after token)
            | none => (code, column) :: onward 0 (.statement false)

/-- Crunches a line from a column on: digits are kept and spaces dropped up to the statement. -/
def line : List Code → Nat → List (Code × Nat)
  | [], column => [(Code.newline, column)]
  | code :: rest, column =>
      if code = Code.space then
        line rest (column + 1)
      else if Code.isDigit code then
        (code, column) :: line rest (column + 1)
      else
        body (code :: rest) column 0 false (.statement true)

end Crunch

/-- Crunches a typed line. -/
def crunch (text : List Code) : Crunched :=
  ⟨Crunch.line text 0⟩

namespace Crunch

theorem body_ne_nil (text : List Code) (column skip : Nat) (afterName : Bool) (reading : Reading) :
    body text column skip afterName reading ≠ [] := by
  induction text generalizing column skip afterName reading with
  | nil => simp [body]
  | cons code rest inductionHypothesis =>
      cases skip with
      | succ skip => exact inductionHypothesis _ _ _ _
      | zero =>
          simp only [body]
          repeat' split
          all_goals first
            | exact inductionHypothesis _ _ _ _
            | exact List.cons_ne_nil _ _

theorem line_ne_nil (text : List Code) (column : Nat) : line text column ≠ [] := by
  induction text generalizing column with
  | nil => simp [line]
  | cons code rest inductionHypothesis =>
      simp only [line]
      repeat' split
      · exact inductionHypothesis _
      · exact List.cons_ne_nil _ _
      · exact body_ne_nil _ _ _ _ _

end Crunch

/-- A crunched line has at least the byte that ends it. -/
theorem crunch_bytes_ne_nil (text : List Code) : (crunch text).bytes ≠ [] := by
  simp [crunch, Crunched.bytes, Crunch.line_ne_nil]

end HomeBasic
