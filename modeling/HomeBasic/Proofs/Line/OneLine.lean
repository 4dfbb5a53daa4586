import HomeBasic.EditLine
import HomeBasic.Program.Packing

/-!
# Text on one line

The byte that ends a line is no display code and no token, so it is neither written by
listing a line nor put in by crunching one, but for the one at the end.

Main statements: a text without an end of line crunches to a statement without one
(`oneLine_crunch`), and is listed without one (`oneLine_listing`); a text with one crunches
to a statement with one (`newline_mem_crunch`). A decimal number has none, nor a quote
(`digit_of_mem_digits`).
-/

namespace HomeBasic

namespace Decimal

/-- A number is written with digits. -/
theorem digit_of_mem_digits {value : Nat} {code : Code} (member : code ∈ digits value) :
    code.isDigit = true := by
  obtain ⟨character, written, rfl⟩ := List.mem_map.mp member
  have digit := Nat.isDigit_of_mem_toDigits (by decide) (by decide) written
  obtain ⟨lower, upper⟩ : 48 ≤ character.toNat ∧ character.toNat ≤ 57 := by
    simpa [Char.isDigit, UInt32.le_iff_toNat_le] using digit
  have every : ∀ digit : Fin 10,
      Code.isDigit (UInt8.ofNat (digit.val + 48 - 0x20)) = true := by
    decide
  have same : character.toNat = character.toNat - 48 + 48 := by omega
  rw [same]
  exact every ⟨character.toNat - 48, by omega⟩

/-- A code that is neither a digit nor a minus is not in a written number. -/
theorem not_mem_format {code : Code} (value : Int) (noDigit : code.isDigit = false)
    (noMinus : code ≠ Code.minus) : code ∉ format value := by
  have undigital : ∀ value, code ∉ digits value := fun value member => by
    rw [digit_of_mem_digits member] at noDigit
    cases noDigit
  unfold format
  split
  · exact List.not_mem_cons_of_ne_of_not_mem noMinus (undigital _)
  · exact undigital _

end Decimal

namespace Token

theorem code_ne_newline (token : Token) : token.code ≠ Code.newline := by
  cases token with
  | word word => cases word <;> decide
  | keyword keyword => cases keyword <;> decide

theorem spellingCodes_ne_nil (token : Token) : token.spellingCodes ≠ [] := by
  cases token with
  | word word => cases word <;> exact List.cons_ne_nil _ _
  | keyword keyword => cases keyword <;> exact List.cons_ne_nil _ _

theorem newline_not_mem_spellingCodes (token : Token) : Code.newline ∉ token.spellingCodes := by
  cases token with
  | word word => cases word <;> decide
  | keyword keyword => cases keyword <;> decide

end Token

/-! ## Crunching -/

namespace Crunch

/-- Cells of one line: only the last of them ends it. -/
def OneLine (cells : List (Code × Nat)) : Prop :=
  ∃ front column, cells = front ++ [(Code.newline, column)] ∧ Code.newline ∉ front.map Prod.fst

theorem OneLine.cons {cells : List (Code × Nat)} (oneLine : OneLine cells) {code : Code}
    {column : Nat} (onLine : code ≠ Code.newline) : OneLine ((code, column) :: cells) := by
  obtain ⟨front, last, rfl, absent⟩ := oneLine
  exact ⟨(code, column) :: front, last, rfl, by
    rw [List.map_cons]
    exact List.not_mem_cons_of_ne_of_not_mem onLine.symm absent⟩

theorem oneLine_body {text : List Code} (oneLine : Code.newline ∉ text)
    (column skip : Nat) (afterName : Bool) (reading : Reading) :
    OneLine (body text column skip afterName reading) := by
  induction text generalizing column skip afterName reading with
  | nil => exact ⟨[], column, rfl, by simp⟩
  | cons code rest inductionHypothesis =>
      obtain ⟨first, others⟩ := List.ne_and_not_mem_of_not_mem_cons oneLine
      have onLine : code ≠ Code.newline := fun same => first same.symm
      have onward := inductionHypothesis others
      cases skip with
      | succ skip => exact onward _ _ _ _
      | zero =>
          cases reading with
          | remark => exact (onward _ _ _ _).cons onLine
          | remarkGap =>
              simp only [body]
              split
              · exact onward _ _ _ _
              · exact (onward _ _ _ _).cons onLine
          | string => exact (onward _ _ _ _).cons onLine
          | statement atStart =>
              simp only [body]
              split
              · exact onward _ _ _ _
              · split
                · exact (onward _ _ _ _).cons onLine
                · split
                  · exact (onward _ _ _ _).cons (Token.code_ne_newline (.word .print))
                  · cases tokenAt? afterName (code :: rest) with
                    | none => exact (onward _ _ _ _).cons onLine
                    | some found => exact (onward _ _ _ _).cons (Token.code_ne_newline found.1)

theorem oneLine_line {text : List Code} (oneLine : Code.newline ∉ text) (column : Nat) :
    OneLine (line text column) := by
  induction text generalizing column with
  | nil => exact ⟨[], column, rfl, by simp⟩
  | cons code rest inductionHypothesis =>
      obtain ⟨first, others⟩ := List.ne_and_not_mem_of_not_mem_cons oneLine
      simp only [line]
      split
      · exact inductionHypothesis others _
      · split
        · exact (inductionHypothesis others _).cons fun same => first same.symm
        · exact oneLine_body oneLine _ _ _ _

/-- A token takes codes, and no end of line is among them. -/
theorem newline_not_mem_take {afterName : Bool} {text : List Code} {token : Token} {length : Nat}
    (found : tokenAt? afterName text = some (token, length)) :
    0 < length ∧ Code.newline ∉ text.take length := by
  unfold tokenAt? at found
  cases symbol : symbolAt? text with
  | some keyword =>
      rw [symbol] at found
      cases found
      refine ⟨Nat.zero_lt_two, ?_⟩
      rcases text with _ | ⟨first, _ | ⟨second, rest⟩⟩
      · cases symbol
      · cases symbol
      · simp only [symbolAt?] at symbol
        repeat' split at symbol
        next both => rw [both.1, both.2]; simp +decide
        next both => rw [both.1, both.2]; simp +decide
        next both => rw [both.1, both.2]; simp +decide
        next both => rw [both.1, both.2]; simp +decide
        next => cases symbol
  | none =>
      rw [symbol] at found
      dsimp only at found
      split at found
      · cases found
      · unfold wordAt? at found
        dsimp only at found
        split at found
        · cases found
        next some =>
          rw [Bool.or_eq_true, not_or] at some
          obtain ⟨word, _, same⟩ := Option.map_eq_some_iff.mp found
          cases same
          refine ⟨List.length_pos_iff.mpr fun none => some.1 (by rw [none]; rfl), fun member => ?_⟩
          rw [← List.prefix_iff_eq_take.mp (List.takeWhile_prefix _)] at member
          exact absurd (List.all_eq_true.mp List.all_takeWhile _ member) (by decide)

theorem newline_mem_cons {code : Code} {column : Nat} {cells : List (Code × Nat)}
    (some : cells ≠ []) (member : code = Code.newline ∨
      Code.newline ∈ (cells.map Prod.fst).dropLast) :
    Code.newline ∈ (((code, column) :: cells).map Prod.fst).dropLast := by
  rw [List.map_cons, List.dropLast_cons_of_ne_nil (by simpa using some), List.mem_cons]
  exact member.imp_left Eq.symm

/-- An end of line in a text that is crunched stays in front of the one at the end. -/
theorem newline_mem_body {text : List Code} {skip : Nat} (member : Code.newline ∈ text.drop skip)
    (column : Nat) (afterName : Bool) (reading : Reading) :
    Code.newline ∈ ((body text column skip afterName reading).map Prod.fst).dropLast := by
  induction text generalizing column skip afterName reading with
  | nil => simp at member
  | cons code rest inductionHypothesis =>
      cases skip with
      | succ skip => exact inductionHypothesis member _ _ _
      | zero =>
          have onward (later : Code.newline ∈ rest) := @inductionHypothesis 0 later
          have later (different : code ≠ Code.newline) : Code.newline ∈ rest :=
            (List.mem_cons.mp member).resolve_left different.symm
          have kept (reading : Reading) : Code.newline ∈
              (((code, column) :: body rest (column + 1) 0 (Code.isNameCode code) reading).map
                Prod.fst).dropLast := by
            refine newline_mem_cons (body_ne_nil _ _ _ _ _) ?_
            rcases List.mem_cons.mp member with same | later
            · exact .inl same.symm
            · exact .inr (onward later _ _ _)
          cases reading with
          | remark => exact kept .remark
          | remarkGap =>
              simp only [body]
              split
              next blank => exact onward (later (by rw [blank]; decide)) _ _ _
              next => exact kept .remark
          | string => exact kept _
          | statement atStart =>
              simp only [body]
              split
              next blank => exact onward (later (by rw [blank]; decide)) _ _ _
              next =>
                split
                next => exact kept .string
                next =>
                  split
                  next asked =>
                    refine newline_mem_cons (body_ne_nil _ _ _ _ _) (.inr ?_)
                    exact onward (later (by rw [asked.2]; decide)) _ _ _
                  next =>
                    split
                    next token length found =>
                        obtain ⟨positive, outside⟩ := newline_not_mem_take found
                        obtain ⟨fewer, rfl⟩ := Nat.exists_eq_succ_of_ne_zero (Nat.ne_of_gt positive)
                        rw [← List.take_append_drop (fewer + 1) (code :: rest)] at member
                        have behind := (List.mem_append.mp member).resolve_left outside
                        exact newline_mem_cons (body_ne_nil _ _ _ _ _)
                          (.inr (inductionHypothesis behind _ _ _))
                    next => exact kept _

theorem newline_mem_line {text : List Code} (member : Code.newline ∈ text) (column : Nat) :
    Code.newline ∈ ((line text column).map Prod.fst).dropLast := by
  induction text generalizing column with
  | nil => cases member
  | cons code rest inductionHypothesis =>
      simp only [line]
      split
      next blank =>
        refine inductionHypothesis ((List.mem_cons.mp member).resolve_left ?_) _
        rw [blank]
        decide
      next =>
        split
        next digit =>
          refine newline_mem_cons (line_ne_nil _ _) (.inr (inductionHypothesis ?_ _))
          refine (List.mem_cons.mp member).resolve_left fun same => ?_
          rw [← same] at digit
          exact absurd digit (by decide)
        next => exact @newline_mem_body _ 0 member _ _ _

end Crunch

/-- A text without an end of line crunches to bytes without one, but for the last. -/
theorem oneLine_crunch {text : List Code} (oneLine : Code.newline ∉ text) :
    Code.newline ∉ (crunch text).bytes.dropLast := by
  obtain ⟨front, column, cells, absent⟩ := Crunch.oneLine_line oneLine 0
  rw [crunch, Crunched.bytes, cells, List.map_append, List.map_singleton, List.dropLast_concat]
  exact absent

/-- An end of line in a text is among the bytes that it crunches to. -/
theorem newline_mem_crunch {text : List Code} (member : Code.newline ∈ text) :
    Code.newline ∈ (crunch text).bytes.dropLast :=
  Crunch.newline_mem_line member 0

/-- The statement of a line that is spelled on one line has no end of line in it. -/
theorem Line.oneLine_ofCodes {text : List Code} (oneLine : Code.newline ∉ text) :
    Code.newline ∉ (Line.ofCodes text).body := by
  have absent := oneLine_crunch oneLine
  unfold Line.ofCodes
  dsimp only
  split
  · exact fun member => absent (List.mem_of_mem_drop member)
  · exact absent

/-! ## Listing -/

namespace Line

theorem oneLine_listBody {body : List Code} (oneLine : Code.newline ∉ body) (spaced : Bool) :
    Code.newline ∉ listBody spaced body := by
  induction body generalizing spaced with
  | nil => exact List.not_mem_nil
  | cons byte rest inductionHypothesis =>
      obtain ⟨first, others⟩ := List.ne_and_not_mem_of_not_mem_cons oneLine
      have onward := inductionHypothesis others
      rw [listBody]
      cases Token.ofCode? byte with
      | none => exact List.not_mem_cons_of_ne_of_not_mem first (onward false)
      | some token =>
          have spelled := token.newline_not_mem_spellingCodes
          dsimp only
          split
          · have blank : Code.newline ≠ Code.space := by decide
            cases spaced <;> simp [spelled, blank, onward true]
          · simp [spelled, onward false]

theorem mem_of_mem_trimEnd {code : Code} {codes : List Code} (member : code ∈ trimEnd codes) :
    code ∈ codes := by
  have kept := (List.dropWhile_sublist _).mem (List.mem_reverse.mp member)
  exact List.mem_reverse.mp kept

/-- A line without an end of line in it is listed without one. -/
theorem oneLine_listing {line : Line} (oneLine : Code.newline ∉ line.body) (size : WordSize) :
    Code.newline ∉ line.listing size := by
  intro member
  have listed := mem_of_mem_trimEnd member
  rcases List.mem_append.mp listed with number | body
  · unfold listNumber at number
    split at number
    · cases number
    · exact Decimal.not_mem_format _ (by decide) (by decide) number
  · exact oneLine_listBody oneLine _ body

end Line

namespace Program

/-- Whatever packed bytes open with as a line, no end of line is in it. -/
theorem oneLine_of_headLine? {bytes : List Code} {line : Line}
    (found : headLine? bytes = some line) : Code.newline ∉ line.body := by
  rw [headLine?, Option.ite_none_left_eq_some] at found
  obtain ⟨_, same⟩ := found
  cases same
  dsimp only
  unfold headLength
  cases ended : (bytes.drop 2).findIdx? (· == Code.newline) with
  | some length => exact (Bytes.split_at_mark ended).1
  | none =>
      intro member
      have absent := List.findIdx?_eq_none_iff.mp ended _ (List.mem_of_mem_take member)
      simp at absent

end Program

/-! ## The edit line -/

namespace EditLine

variable {edit : EditLine}

theorem oneLine_insert (oneLine : Code.newline ∉ edit.text) {code : Code}
    (onLine : code ≠ Code.newline) : Code.newline ∉ (edit.insert code).text := by
  intro member
  rcases List.mem_append.mp member with before | rest
  · exact oneLine (List.mem_of_mem_take before)
  · rcases List.mem_cons.mp rest with same | after
    · exact onLine same.symm
    · exact oneLine (List.mem_of_mem_drop after)

theorem oneLine_backspace (oneLine : Code.newline ∉ edit.text) :
    Code.newline ∉ edit.backspace.text := by
  unfold backspace
  cases edit.cursor with
  | zero => exact oneLine
  | succ cursor => exact fun member => oneLine (List.mem_of_mem_eraseIdx member)

theorem oneLine_right (oneLine : Code.newline ∉ edit.text) : Code.newline ∉ edit.right.text := by
  unfold right
  split <;> exact oneLine

end EditLine
end HomeBasic
