import HomeBasic.Proofs.Line.Cutting
import HomeBasic.Proofs.Line.OneLine
import Mathlib.Order.Bounds.Basic

/-!
# The columns of a crunched line

A crunched line is cut into pieces: codes that stand for themselves, words and symbols, and
question marks that stand for `PRINT`. Behind each piece there may be spaces, which are lost,
but not within a string and not within a remark, so that the column of each byte tells which
part of the text it came from.

Main statement: the columns of a crunched line cut its text into the sources of its bytes, and
lead back from each place of the text to the byte that follows there (`columns_exact`).
-/

namespace HomeBasic
namespace Crunch

/-- What a byte of a crunched line comes from. -/
inductive Piece
  /-- A code that stands for itself. -/
  | plain (code : Code)
  /-- A word or symbol. -/
  | spelled (token : Token)
  /-- A question mark in place of a statement word. -/
  | question
  deriving DecidableEq, Repr

namespace Piece

/-- The byte that stands for a piece. -/
def byte : Piece → Code
  | plain code => code
  | spelled token => token.code
  | question => StatementWord.print.code

/-- The codes that a piece is typed with. -/
def source : Piece → List Code
  | plain code => [code]
  | spelled token => token.spellingCodes
  | question => [Code.question]

end Piece

/-- What is around a place of a line. -/
inductive Place
  | statement
  /-- Between a quote and the quote that closes it. -/
  | string
  /-- Behind `REM`. -/
  | remark
  deriving DecidableEq, Repr

namespace Place

/-- What is around the place behind a piece. -/
def past : Place → Piece → Place
  | statement, .plain code => if code = Code.quote then string else statement
  | statement, .spelled token => if token = .word .rem then remark else statement
  | statement, .question => statement
  | string, piece => if piece = .plain Code.quote then statement else string
  | remark, _ => remark

/-- What is around the place in front of a piece of a line, counted from a place on. -/
def ahead (place : Place) (pieces : List Piece) (index : Nat) : Place :=
  (pieces.take index).foldl past place

theorem statement_ne_string : statement ≠ string := by decide

theorem statement_ne_remark : statement ≠ remark := by decide

theorem remark_ne_string : remark ≠ string := by decide

end Place

/-- The place that a reading belongs to. -/
def Reading.place : Reading → Place
  | .statement _ => .statement
  | .string => .string
  | .remarkGap | .remark => .remark

/-! ## Tokens -/

/-- A symbol takes the two codes of its spelling. -/
theorem spelled_of_symbolAt? {text : List Code} {keyword : Keyword}
    (found : symbolAt? text = some keyword) :
    keyword.isSymbol = true ∧ text.take 2 = (Token.keyword keyword).spellingCodes := by
  rcases text with _ | ⟨first, _ | ⟨second, rest⟩⟩
  · cases found
  · cases found
  · simp only [symbolAt?] at found
    repeat' split at found
    all_goals cases found
    all_goals
      next both =>
        rw [both.1, both.2]
        exact ⟨rfl, rfl⟩

/-- The codes that a token takes are those of its spelling. -/
theorem take_of_tokenAt? {afterName : Bool} {text : List Code} {token : Token} {length : Nat}
    (found : tokenAt? afterName text = some (token, length)) :
    text.take length = token.spellingCodes := by
  unfold tokenAt? at found
  cases symbol : symbolAt? text with
  | some keyword =>
      rw [symbol] at found
      cases found
      exact (spelled_of_symbolAt? symbol).2
  | none =>
      rw [symbol] at found
      dsimp only at found
      split at found
      · cases found
      · unfold wordAt? at found
        dsimp only at found
        split at found
        · cases found
        next =>
          obtain ⟨word, spelled, same⟩ := Option.map_eq_some_iff.mp found
          cases same
          rw [← List.prefix_iff_eq_take.mp (List.takeWhile_prefix _)]
          have letters := List.find?_some spelled
          exact (eq_of_beq letters).symm

/-! ## Laying out -/

/--
Cells lay out a text from a column on: piece by piece, each with the spaces behind it, and the
last cell at the end of the text.
-/
inductive Laid : Place → Nat → List Code → List (Code × Nat) → Prop
  | done (place : Place) (column : Nat) : Laid place column [] [(Code.newline, column)]
  | cons {place : Place} {column : Nat} {rest : List Code} {cells : List (Code × Nat)}
      (piece : Piece) (gap : Nat)
      (plain : place ≠ .statement → ∃ code, piece = .plain code)
      (tight : place.past piece = .string ∨ place = .remark → gap = 0)
      (onward : Laid (place.past piece) (column + piece.source.length + gap) rest cells) :
      Laid place column (piece.source ++ List.replicate gap Code.space ++ rest)
        ((piece.byte, column) :: cells)

/-- Cells lay out a text from a column on, but for the spaces in front of it. -/
def LaidBehind (place : Place) (spaced : Prop) (column : Nat) (text : List Code)
    (cells : List (Code × Nat)) : Prop :=
  ∃ gap rest, text = List.replicate gap Code.space ++ rest ∧ (¬spaced → gap = 0) ∧
    Laid place (column + gap) rest cells

namespace LaidBehind

variable {place : Place} {spaced : Prop} {column : Nat} {text : List Code}
  {cells : List (Code × Nat)}

theorem of_laid (laid : Laid place column text cells) :
    LaidBehind place spaced column text cells :=
  ⟨0, text, rfl, fun _ => rfl, laid⟩

/-- One more space in front. -/
theorem space (may : spaced) (behind : LaidBehind place spaced (column + 1) text cells) :
    LaidBehind place spaced column (Code.space :: text) cells := by
  obtain ⟨gap, rest, rfl, -, laid⟩ := behind
  rw [Nat.add_assoc, Nat.add_comm 1] at laid
  exact ⟨gap + 1, rest, rfl, fun no => absurd may no, laid⟩

/-- A piece, and what is laid out behind it. -/
theorem piece {before : Prop} (piece : Piece)
    (plain : place ≠ .statement → ∃ code, piece = .plain code)
    (tight : place.past piece = .string ∨ place = .remark → ¬spaced)
    (behind : LaidBehind (place.past piece) spaced (column + piece.source.length) text cells) :
    LaidBehind place before column (piece.source ++ text) ((piece.byte, column) :: cells) := by
  obtain ⟨gap, rest, rfl, none, laid⟩ := behind
  rw [← List.append_assoc]
  exact of_laid (.cons piece gap plain (fun around => none (tight around)) laid)

/-- A piece behind which there may be spaces. -/
theorem loose {before : Prop} (piece : Piece)
    (plain : place ≠ .statement → ∃ code, piece = .plain code)
    (around : place.past piece ≠ .string ∧ place ≠ .remark)
    (behind : LaidBehind (place.past piece) True (column + piece.source.length) text cells) :
    LaidBehind place before column (piece.source ++ text) ((piece.byte, column) :: cells) :=
  .piece piece plain (fun tight => absurd tight (not_or.mpr around)) behind

end LaidBehind

/-- There may be spaces in front of a code that is read so, which are lost. -/
def Reading.Spaced : Reading → Prop
  | .statement _ | .remarkGap => True
  | .string | .remark => False

/-- A word or symbol, and what is laid out behind the codes that it takes. -/
theorem laidBehind_token {before : Prop} {column length : Nat} {text : List Code}
    {cells : List (Code × Nat)} {afterName : Bool} {token : Token}
    (found : tokenAt? afterName text = some (token, length))
    (behind : LaidBehind (Reading.after token).place (Reading.after token).Spaced
      (column + length) (text.drop length) cells) :
    LaidBehind .statement before column text ((token.code, column) :: cells) := by
  have taken := take_of_tokenAt? found
  have size : (Piece.spelled token).source.length = length := by
    change token.spellingCodes.length = length
    rw [← taken, List.length_take, Nat.min_eq_left (length_of_tokenAt? found).2]
  have around : (Reading.after token).place = Place.statement.past (.spelled token) := by
    unfold Reading.after
    dsimp only [Place.past]
    split <;> rfl
  have spaced : (Reading.after token).Spaced = True := by
    unfold Reading.after
    split <;> rfl
  rw [around, spaced] at behind
  rw [← List.take_append_drop length text, taken]
  refine .loose (.spelled token) (fun no => absurd rfl no) ⟨?_, Place.statement_ne_remark⟩
    (by rwa [size])
  rw [← around]
  unfold Reading.after
  split
  · exact Place.remark_ne_string
  · exact Place.statement_ne_string

/-- A code outside of strings that is no part of a token stands for itself. -/
theorem laidBehind_plain {before : Prop} {column : Nat} {code : Code} {rest : List Code}
    {cells : List (Code × Nat)} (unquoted : code ≠ Code.quote)
    (behind : LaidBehind .statement True (column + 1) rest cells) :
    LaidBehind .statement before column (code :: rest) ((code, column) :: cells) := by
  have outside : Place.statement.past (.plain code) = .statement := if_neg unquoted
  refine .loose (.plain code) (fun no => absurd rfl no) ⟨?_, Place.statement_ne_remark⟩ ?_
  · rw [outside]
    exact Place.statement_ne_string
  · rw [outside]
    exact behind

/-- A code inside of a string stands for itself. -/
theorem laidBehind_inside {before : Prop} {column : Nat} {code : Code} {rest : List Code}
    {cells : List (Code × Nat)} (unquoted : code ≠ Code.quote)
    (behind : LaidBehind .string False (column + 1) rest cells) :
    LaidBehind .string before column (code :: rest) ((code, column) :: cells) := by
  have inside : Place.string.past (.plain code) = .string :=
    if_neg fun same => unquoted (Piece.plain.inj same)
  refine .piece (.plain code) (fun _ => ⟨code, rfl⟩) (fun _ => id) ?_
  rw [inside]
  exact behind

/-- A statement is laid out behind the codes that still belong to the token before, and behind
spaces, if there may be any. -/
theorem laidBehind_body (text : List Code) (column : Nat) {skip : Nat}
    (within : skip ≤ text.length) (afterName : Bool) (reading : Reading) :
    LaidBehind reading.place reading.Spaced (column + skip) (text.drop skip)
      (body text column skip afterName reading) := by
  induction text generalizing column skip afterName reading with
  | nil =>
      obtain rfl := Nat.le_zero.mp within
      exact .of_laid (.done _ _)
  | cons code rest inductionHypothesis =>
      cases skip with
      | succ skip =>
          -- The code still belongs to the token in front of it.
          have passed := inductionHypothesis (column + 1) (Nat.le_of_succ_le_succ within)
            code.isNameCode reading
          rwa [Nat.add_right_comm column 1 skip] at passed
      | zero =>
          have onward (reading : Reading) := inductionHypothesis (column + 1)
            (Nat.zero_le rest.length) code.isNameCode reading
          cases reading with
          | remark =>
              exact .piece (.plain code) (fun _ => ⟨code, rfl⟩) (fun _ => id) (onward .remark)
          | remarkGap =>
              rw [body]
              split
              next blank =>
                subst blank
                exact .space trivial (onward .remarkGap)
              next =>
                exact .piece (.plain code) (fun _ => ⟨code, rfl⟩) (fun _ => id) (onward .remark)
          | string =>
              rw [body]
              by_cases closing : code = Code.quote
              · subst closing
                exact .loose (.plain Code.quote) (fun _ => ⟨_, rfl⟩)
                  ⟨Place.statement_ne_string, by decide⟩
                  (onward (.statement false))
              · rw [if_neg closing]
                exact laidBehind_inside closing (onward .string)
          | statement atStart =>
              rw [body]
              split_ifs with blank quoted asked
              · subst blank
                exact .space trivial (onward (.statement atStart))
              · subst quoted
                exact .piece (.plain Code.quote) (fun no => absurd rfl no) (fun _ => id)
                  (onward .string)
              · obtain ⟨-, rfl⟩ := asked
                exact .loose .question (fun no => absurd rfl no)
                  ⟨Place.statement_ne_string, Place.statement_ne_remark⟩
                  (onward (.statement false))
              · cases found : tokenAt? afterName (code :: rest) with
                | none => exact laidBehind_plain quoted (onward (.statement false))
                | some pair =>
                    obtain ⟨token, length⟩ := pair
                    obtain ⟨positive, fits⟩ := length_of_tokenAt? found
                    obtain ⟨fewer, rfl⟩ := Nat.exists_eq_add_of_le' positive
                    have passed := inductionHypothesis (column + 1)
                      (Nat.le_of_succ_le_succ fits) code.isNameCode (.after token)
                    rw [Nat.add_right_comm] at passed
                    exact laidBehind_token found passed

/-- A line is laid out behind the spaces that it begins with. -/
theorem laidBehind_line (text : List Code) (column : Nat) :
    LaidBehind .statement True column text (line text column) := by
  induction text generalizing column with
  | nil => exact .of_laid (.done _ _)
  | cons code rest inductionHypothesis =>
      rw [line]
      split
      next blank =>
        subst blank
        exact .space trivial (inductionHypothesis _)
      next =>
        split
        next digit =>
          have outside : Place.statement.past (.plain code) = .statement := by
            refine if_neg ?_
            rintro rfl
            cases digit
          refine .loose (.plain code) (fun no => absurd rfl no) ⟨?_, Place.statement_ne_remark⟩ ?_
          · rw [outside]
            exact Place.statement_ne_string
          · rw [outside]
            exact inductionHypothesis _
        next =>
          exact laidBehind_body (code :: rest) column (Nat.zero_le _) false (.statement true)

/-! ## The columns of what is laid out -/

theorem Piece.length_source_pos (piece : Piece) : 0 < piece.source.length := by
  cases piece with
  | plain | question => exact Nat.one_pos
  | spelled token => exact List.length_pos_iff.mpr token.spellingCodes_ne_nil

theorem column_zero (cell : Code × Nat) (cells : List (Code × Nat)) :
    (Crunched.mk (cell :: cells)).column 0 = cell.2 := rfl

theorem column_succ (cell : Code × Nat) {cells : List (Code × Nat)} (some : cells ≠ [])
    (index : Nat) :
    (Crunched.mk (cell :: cells)).column (index + 1) = (Crunched.mk cells).column index := by
  obtain ⟨last, ends⟩ : ∃ last, (cells.map Prod.snd).getLast? = .some last :=
    Option.ne_none_iff_exists'.mp fun none => some (by simpa using none)
  simp only [Crunched.column, Crunched.columns, List.map_cons, List.getElem?_cons_succ,
    List.getLast?_cons, ends, Option.getD_some]

namespace Laid

variable {place : Place} {column : Nat} {text : List Code} {cells : List (Code × Nat)}

theorem ne_nil (laid : Laid place column text cells) : cells ≠ [] := by
  cases laid <;> exact List.cons_ne_nil _ _

theorem first (laid : Laid place column text cells) : (Crunched.mk cells).column 0 = column := by
  cases laid <;> rfl

theorem last (laid : Laid place column text cells) :
    cells.getLast? = some (Code.newline, column + text.length) := by
  induction laid with
  | done => rfl
  | cons piece gap plain tight onward inductionHypothesis =>
      rw [List.getLast?_cons, inductionHypothesis, Option.getD_some]
      simp only [List.length_append, List.length_replicate, Nat.add_assoc]

/-- Columns get larger from piece to piece, for a piece takes a code at least. -/
theorem increasing (laid : Laid place column text cells) :
    (cells.map Prod.snd).Pairwise (· < ·) ∧ ∀ later ∈ cells.map Prod.snd, column ≤ later := by
  induction laid with
  | done => simp
  | cons piece gap plain tight onward inductionHypothesis =>
      obtain ⟨increasing, behind⟩ := inductionHypothesis
      have taken := piece.length_source_pos
      rw [List.map_cons, List.pairwise_cons, List.forall_mem_cons]
      refine ⟨⟨fun later member => ?_, increasing⟩, Nat.le_refl _, fun later member => ?_⟩
      · have := behind later member
        dsimp only
        omega
      · have := behind later member
        omega

/-- The columns of a text cut it into the sources of its pieces, with the spaces behind each. -/
theorem exists_pieces {front : List Code} (laid : Laid place column text cells)
    (start : column = front.length) :
    ∃ pieces : List Piece, cells.map Prod.fst = pieces.map Piece.byte ++ [Code.newline] ∧
      ∀ (index : Nat) (inside : index < pieces.length), ∃ gap,
        ((front ++ text).take ((Crunched.mk cells).column (index + 1))).drop
            ((Crunched.mk cells).column index) =
          pieces[index].source ++ List.replicate gap Code.space ∧
        (place.ahead pieces (index + 1) = .string ∨ place.ahead pieces index = .remark →
          gap = 0) ∧
        (place.ahead pieces index ≠ .statement → ∃ code, pieces[index] = .plain code) := by
  induction laid generalizing front with
  | done => exact ⟨[], rfl, fun index inside => absurd inside (Nat.not_lt_zero index)⟩
  | @cons place column rest cells piece gap plain tight onward inductionHypothesis =>
      subst start
      obtain ⟨pieces, bytes, cut⟩ :=
        @inductionHypothesis (front ++ piece.source ++ List.replicate gap Code.space)
          (by simp [Nat.add_assoc])
      refine ⟨piece :: pieces, by rw [List.map_cons, List.map_cons, bytes]; rfl, ?_⟩
      rintro (_ | index) inside
      · refine ⟨gap, ?_, tight, plain⟩
        have whole : front ++ (piece.source ++ List.replicate gap Code.space ++ rest) =
            (front ++ (piece.source ++ List.replicate gap Code.space)) ++ rest := by simp
        have stop : front.length + piece.source.length + gap =
            (front ++ (piece.source ++ List.replicate gap Code.space)).length := by
          simp [Nat.add_assoc]
        rw [column_succ _ onward.ne_nil, onward.first, column_zero, whole, stop, List.take_left,
          List.drop_left]
        rfl
      · obtain ⟨gap, slice, around⟩ := cut index (Nat.lt_of_succ_lt_succ inside)
        refine ⟨gap, ?_, around⟩
        rw [column_succ _ onward.ne_nil, column_succ _ onward.ne_nil]
        simpa using slice

end Laid
end Crunch

/-! ## From columns to bytes -/

namespace Crunched

variable {crunched : Crunched} {index column last : Nat}

theorem column_eq (inside : index < crunched.columns.length) :
    crunched.column index = crunched.columns[index] := by
  rw [Crunched.column, List.getElem?_eq_getElem inside, Option.getD_some]

/-- Up to the last column there is a first byte at or after each column. -/
theorem isLeast_byteAtColumn (ends : crunched.columns.getLast? = some last)
    (within : column ≤ last) :
    IsLeast {index | index < crunched.columns.length ∧ column ≤ crunched.column index}
      (crunched.byteAtColumn column) := by
  obtain ⟨index, found⟩ : ∃ index, crunched.columns.findIdx? (column ≤ ·) = some index := by
    refine Option.ne_none_iff_exists'.mp fun none => ?_
    have beyond := List.findIdx?_eq_none_iff.mp none last (List.mem_of_getLast? ends)
    simp [within] at beyond
  obtain ⟨inside, reached, before⟩ := List.findIdx?_eq_some_iff_getElem.mp found
  rw [byteAtColumn, found, Option.getD_some]
  refine ⟨⟨inside, ?_⟩, ?_⟩
  · rw [column_eq inside]
    exact of_decide_eq_true reached
  · rintro other ⟨otherInside, otherReached⟩
    refine Nat.le_of_not_lt fun earlier => before other earlier ?_
    rw [column_eq otherInside] at otherReached
    exact decide_eq_true otherReached

/-- Where columns only get larger, the column of a byte leads back to that byte. -/
theorem byteAtColumn_column (increasing : crunched.columns.Pairwise (· < ·))
    (inside : index < crunched.columns.length) :
    crunched.byteAtColumn (crunched.column index) = index := by
  have some : crunched.columns ≠ [] := List.length_pos_iff.mp (Nat.zero_lt_of_lt inside)
  have before : ∀ {first second : Nat} (later : second < crunched.columns.length),
      first < second → crunched.column first < crunched.column second := by
    intro first second later earlier
    rw [column_eq later, column_eq (earlier.trans later)]
    exact List.pairwise_iff_getElem.mp increasing _ _ _ _ earlier
  have ends := List.getLast?_eq_some_getLast some
  have within : crunched.column index ≤ crunched.columns.getLast some := by
    rw [List.getLast_eq_getElem, ← column_eq (by omega)]
    rcases Nat.eq_or_lt_of_le (Nat.le_sub_one_of_lt inside) with same | earlier
    · rw [← same]
    · exact Nat.le_of_lt (before (by omega) earlier)
  refine (isLeast_byteAtColumn ends within).unique ⟨⟨inside, Nat.le_refl _⟩, ?_⟩
  rintro other ⟨_, reached⟩
  exact Nat.le_of_not_lt fun earlier => absurd (before inside earlier) (Nat.not_lt.mpr reached)

end Crunched

/--
Crunching a text loses nothing but spaces, and its columns tell where each byte came from.

There is a column for each byte. Columns only get larger, from the first code of the text that
is no space to the end of the text, which is the column of the byte that ends the line. Between
the columns of a byte and of the next there are the codes that the byte stands for, and then
only spaces: none in a string and none in a remark, but right behind `REM`. The column of a
byte leads back to the byte, and any other column of the text to the first byte behind it.
-/
theorem columns_exact (text : List Code) :
    let crunched := crunch text
    crunched.bytes.length = crunched.columns.length ∧
    crunched.columns.Pairwise (· < ·) ∧
    crunched.bytes.getLast? = some Code.newline ∧
    crunched.columns.getLast? = some text.length ∧
    (∀ code ∈ text.take (crunched.column 0), code = Code.space) ∧
    (∃ pieces : List Crunch.Piece,
      crunched.bytes = pieces.map Crunch.Piece.byte ++ [Code.newline] ∧
      ∀ (index : Nat) (inside : index < pieces.length), ∃ gap,
        (text.take (crunched.column (index + 1))).drop (crunched.column index) =
          pieces[index].source ++ List.replicate gap Code.space ∧
        (Crunch.Place.statement.ahead pieces (index + 1) = .string ∨
          Crunch.Place.statement.ahead pieces index = .remark → gap = 0) ∧
        (Crunch.Place.statement.ahead pieces index ≠ .statement →
          ∃ code, pieces[index] = .plain code)) ∧
    (∀ index < crunched.bytes.length,
      crunched.byteAtColumn (crunched.column index) = index) ∧
    ∀ column ≤ text.length,
      IsLeast {index | index < crunched.bytes.length ∧ column ≤ crunched.column index}
        (crunched.byteAtColumn column) := by
  obtain ⟨lead, rest, spaces, -, laid⟩ := Crunch.laidBehind_line text 0
  rw [Nat.zero_add] at laid
  have same : (crunch text).bytes.length = (crunch text).columns.length := by
    rw [Crunched.bytes, Crunched.columns, List.length_map, List.length_map]
  have increasing : (crunch text).columns.Pairwise (· < ·) := laid.increasing.1
  have size : lead + rest.length = text.length := by simp [spaces]
  have ends : (crunch text).columns.getLast? = some text.length := by
    rw [Crunched.columns, crunch, List.getLast?_map, laid.last, size]
    rfl
  obtain ⟨pieces, bytes, cut⟩ :=
    @Crunch.Laid.exists_pieces _ _ _ _ (List.replicate lead Code.space) laid (by simp)
  rw [← spaces] at cut
  refine ⟨same, increasing, ?_, ends, ?_, ⟨pieces, bytes, cut⟩, ?_, ?_⟩
  · rw [Crunched.bytes, crunch, List.getLast?_map, laid.last]
    rfl
  · intro code member
    rw [crunch, laid.first, spaces, List.take_left' (by simp)] at member
    exact List.eq_of_mem_replicate member
  · rw [same]
    exact fun index => Crunched.byteAtColumn_column increasing
  · rw [same]
    exact fun column => Crunched.isLeast_byteAtColumn ends

end HomeBasic
