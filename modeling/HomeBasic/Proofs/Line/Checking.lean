import HomeBasic.Proofs.Number.Spelling
import HomeBasic.Proofs.Statement.Modes
import HomeBasic.Verdict

/-!
# What the check of an edit line finds

The editor takes a text exactly if the line that it spells has a statement that checks by
itself, and then it takes it as that line: with its number and with its statement.

The editor reads the number in sixteen bits that wrap, and that makes no difference
(`numberOf?_eq_wrappedNumber`).

Main statements: `result_check_iff` and `statement_check`.
-/

namespace HomeBasic

theorem Code.isLetter_of_isDigit {code : Code} (digit : code.isDigit = true) :
    code.isLetter = false := by
  simp only [isDigit, isLetter, Bool.and_eq_true, decide_eq_true_eq, UInt8.le_iff_toNat_le,
    Bool.and_eq_false_imp, decide_eq_false_iff_not] at digit ⊢
  intro letter
  exact absurd (Nat.le_trans letter digit.2) (by decide)

theorem Token.ofCode?_digit {code : Code} (digit : code.isDigit = true) :
    ofCode? code = none := by
  cases found : ofCode? code with
  | none => rfl
  | some token =>
      obtain rfl := ofCode?_eq_some_iff.mp found
      cases token with
      | word word => cases word <;> cases digit
      | keyword keyword => cases keyword <;> cases digit

theorem Token.code_ne_space (token : Token) : token.code ≠ Code.space := by
  cases token with
  | word word => cases word <;> decide
  | keyword keyword => cases keyword <;> decide

/-! ## Statements by themselves -/

/-- A statement checks, with nothing in front of it. -/
def Statement.Checks (config : Config) (statement : List Code) : Prop :=
  ∃ found, (Statement.line (.blank config) .check
    (⟨.ofBytes statement 0, .empty config.calculatorDepth, {}⟩ : Desk NoConsole)).1 = .ok found

theorem Scanner.line_eq {scanner : Scanner} {front after : List Code}
    (rest : scanner.rest = front ++ after) (oneLine : Code.newline ∉ front)
    (ends : after.headD Code.newline = Code.newline) : scanner.line = front := by
  have kept : ∀ code ∈ front, (code != Code.newline) = true := by
    intro code member
    rw [bne_iff_ne]
    rintro rfl
    exact oneLine member
  rw [line, rest, List.takeWhile_append_of_pos kept]
  cases after with
  | nil => rw [List.takeWhile_nil, List.append_nil]
  | cons first others =>
      obtain rfl : first = Code.newline := ends
      simp

theorem Scanner.line_ofBytes {statement : List Code} (oneLine : Code.newline ∉ statement) :
    (Scanner.ofBytes statement 0).line = statement :=
  Scanner.line_eq (List.append_nil _).symm oneLine rfl

namespace Statement

variable {H : Type} [Console H] {config : Config} {statement : List Code} {desk : Desk H}

theorem checks_iff (oneLine : Code.newline ∉ statement) (line : desk.scanner.line = statement)
    (calculator : desk.calculator = .empty config.calculatorDepth) :
    Checks config statement ↔
      ∃ found, (Statement.line (.blank config) .check desk).1 = .ok found := by
  refine checks_congr ⟨?_, calculator.symm⟩ rfl
  rw [line]
  exact Scanner.line_ofBytes oneLine

/-- No statement opens with a digit. -/
theorem not_checks_digit {code : Code} {rest : List Code} (digit : code.isDigit = true) :
    ¬Checks config (code :: rest) := by
  rintro ⟨found, checked⟩
  have noToken : Token.ofCode? code = none := Token.ofCode?_digit digit
  have noLetter : code.isLetter = false := Code.isLetter_of_isDigit digit
  have solid : code ≠ Code.space := by
    rintro rfl
    cases digit
  have more : code ≠ Code.newline := by
    rintro rfl
    cases digit
  have failed : ∀ desk : Desk NoConsole, desk.scanner.current = code →
      (statement (.blank config) .check desk).1 = .error .syntaxError := by
    rintro desk rfl
    have looked : (atWord desk.scanner).current = desk.scanner.current :=
      @Scanner.look_current { desk.scanner with wordExpected := true } solid
    rw [statement_apply, Attempt.bind_apply, lookForWord_apply]
    dsimp only
    rw [looked, if_neg more, Attempt.bind_apply, readWord, noToken, noLetter]
    rfl
  have failed := failed ⟨.ofBytes (code :: rest) 0, .empty config.calculatorDepth, {}⟩ rfl
  rw [Statement.line, Attempt.bind_apply, turnsLeft, Attempt.bind_apply] at checked
  simp only [Attempt.get_apply, Attempt.pure_apply, statements, Attempt.bind_apply] at checked
  generalize statement (.blank config) .check
    (⟨.ofBytes (code :: rest) 0, .empty config.calculatorDepth, {}⟩ : Desk NoConsole) = outcome
    at failed checked
  rcases outcome with ⟨fault | outcome, reached⟩
  · cases checked
  · cases failed

end Statement

/-! ## Crunched lines -/

namespace Crunch

theorem head_line_ne_space (text : List Code) (column : Nat) :
    ((line text column).map Prod.fst).headD Code.newline ≠ Code.space := by
  induction text generalizing column with
  | nil => exact fun same => by cases same
  | cons code rest inductionHypothesis =>
      simp only [line]
      split
      next => exact inductionHypothesis _
      next solid =>
        split
        next => exact solid
        next =>
          simp only [body, if_neg solid]
          split
          next => exact solid
          next =>
            split
            next => exact fun same => by cases same
            next =>
              cases tokenAt? false (code :: rest) with
              | none => exact solid
              | some found => exact found.1.code_ne_space

end Crunch

/-- A crunched line is one line with its end. -/
theorem crunch_bytes {text : List Code} (oneLine : Code.newline ∉ text) :
    ∃ front, (crunch text).bytes = front ++ [Code.newline] ∧ Code.newline ∉ front := by
  obtain ⟨front, column, cells, absent⟩ := Crunch.oneLine_line oneLine 0
  refine ⟨front.map Prod.fst, ?_, absent⟩
  rw [crunch, Crunched.bytes, cells, List.map_append, List.map_singleton]

/-! ## Line numbers -/

namespace EditLine

variable {desk : Desk NoConsole} {digits front : List Code}

theorem wrappedNumber_eq_mod (digits : List Code) :
    wrappedNumber digits = Decimal.valueOf digits % 65536 := by
  induction digits using List.reverseRecOn with
  | nil => rfl
  | append_singleton digits digit inductionHypothesis =>
      rw [Decimal.valueOf_append_singleton, wrappedNumber, List.foldl_append, List.foldl_cons,
        List.foldl_nil, ← wrappedNumber, inductionHypothesis]
      omega

/-- The editor and the line that is spelled have the same line number: no number of so few digits
as are allowed is too large for sixteen bits. -/
theorem numberOf?_eq_wrappedNumber (some : digits ≠ [])
    (number : ∀ code ∈ digits, code.isDigit = true) :
    Line.numberOf? digits =
      if 4 < digits.length ∨ wrappedNumber digits = 0 ∨ Line.maxNumber < wrappedNumber digits then
        none
      else
        .some (wrappedNumber digits) := by
  have positive := List.length_pos_iff.mpr some
  rw [Line.numberOf?]
  by_cases short : digits.length ≤ 4
  · have small : Decimal.valueOf digits < 10 ^ 4 :=
      (Decimal.valueOf_lt_pow number).trans_le (Nat.pow_le_pow_right (by decide) short)
    rw [wrappedNumber_eq_mod, Nat.mod_eq_of_lt (by omega)]
    split_ifs <;> first | rfl | omega
  · rw [if_neg (by omega), if_pos (by omega)]

/-- The scanner passes over the digits that a line opens with, and reads them as its number. -/
theorem readLineNumber_apply (rest : desk.scanner.rest = front ++ [Code.newline])
    (oneLine : Code.newline ∉ front) (solid : desk.scanner.current ≠ Code.space) :
    readLineNumber desk =
      let digits := front.takeWhile Code.isDigit
      let passed := { desk with scanner := desk.scanner.look.pass digits.length }
      if digits.isEmpty then (.ok 0, passed)
      else
        match Line.numberOf? digits with
        | some number => (.ok number, passed)
        | none => (.error .syntaxError, passed) := by
  have same : desk.scanner.look.rest = front ++ [Code.newline] := by
    rw [Scanner.look, Scanner.rest_noteCursor, Scanner.skipSpaces_of_solid solid, rest]
  have digits : (front ++ [Code.newline]).takeWhile Code.isDigit =
      front.takeWhile Code.isDigit := by
    have line : desk.scanner.line = front := Scanner.line_eq rest oneLine rfl
    have ends : Code.isDigit Code.newline = false := rfl
    rw [← rest, ← Scanner.takeWhile_line ends, ← line, Scanner.line]
  rw [readLineNumber, Attempt.bind_apply, Desk.look_apply]
  dsimp only
  rw [Scanner.current, same]
  cases front with
  | nil => rfl
  | cons code others =>
      cases digit : code.isDigit with
      | false =>
          simp only [List.cons_append, List.headD_cons, digit, Bool.not_false, if_true,
            List.takeWhile_cons, Bool.false_eq_true, if_false, List.isEmpty_nil]
          rfl
      | true =>
          have some : ((code :: others).takeWhile Code.isDigit).isEmpty = false := by
            simp only [List.takeWhile_cons, digit, if_true, List.isEmpty_cons]
          simp only [List.cons_append, List.headD_cons, digit, Bool.not_true, Bool.false_eq_true,
            if_false, Attempt.bind_apply, Attempt.get_apply, same]
          have number : ∀ each ∈ (code :: others).takeWhile Code.isDigit, each.isDigit = true :=
            fun each member => List.all_eq_true.mp List.all_takeWhile each member
          rw [← List.cons_append, digits, some,
            numberOf?_eq_wrappedNumber (List.isEmpty_eq_false_iff.mp some) number,
            if_neg Bool.false_ne_true]
          split_ifs <;> rfl

/-! ## The check -/

variable {config : Config} {edit : EditLine}

/-- What is found of a line with a number, once its statement is at hand. -/
def verdictAt (config : Config) (number : Nat) (desk : Desk NoConsole) : Verdict :=
  match Statement.line (.blank config) .check desk with
  | (.ok _, reached) => ⟨.ok number, desk.scanner.position, reached.scanner.glyph⟩
  | (.error fault, reached) =>
      ⟨.error (fault, reached.scanner.position), desk.scanner.position, reached.scanner.glyph⟩

theorem check_apply (config : Config) (edit : EditLine) :
    edit.check config =
      match readLineNumber ⟨.ofEditLine edit, .empty config.calculatorDepth, {}⟩ with
      | (.error fault, desk) => ⟨.error (fault, 0), 0, desk.scanner.glyph⟩
      | (.ok number, desk) => verdictAt config number desk := rfl

theorem body_verdictAt (number : Nat) :
    (verdictAt config number desk).body = desk.scanner.position := by
  unfold verdictAt
  split <;> rfl

theorem result_verdictAt_iff (number other : Nat) :
    (verdictAt config number desk).result = .ok other ↔
      number = other ∧ ∃ found, (Statement.line (.blank config) .check desk).1 = .ok found := by
  unfold verdictAt
  rcases Statement.line (.blank config) .check desk with ⟨fault | found, reached⟩ <;> simp

/-- The scanner behind the digits of its number that the text of an edit line opens with. -/
def behindNumber (edit : EditLine) (front : List Code) : Scanner :=
  (Scanner.ofEditLine edit).look.pass (front.takeWhile Code.isDigit).length

theorem solid_of_crunched (crunched : edit.crunched = crunch edit.text) :
    (Scanner.ofEditLine edit).current ≠ Code.space := by
  have head := Crunch.head_line_ne_space edit.text 0
  rw [Scanner.current, Scanner.ofEditLine, EditLine.bytes, crunched]
  exact head

theorem position_behindNumber (solid : (Scanner.ofEditLine edit).current ≠ Code.space) :
    (behindNumber edit front).position = (front.takeWhile Code.isDigit).length := by
  have stands : (Scanner.ofEditLine edit).look.position = 0 := by
    rw [Scanner.look, Scanner.position_noteCursor, Scanner.skipSpaces_of_solid solid]
    rfl
  change (Scanner.ofEditLine edit).look.position + _ = _
  rw [stands, Nat.zero_add]

theorem line_behindNumber (edited : edit.bytes = front ++ [Code.newline])
    (absent : Code.newline ∉ front)
    (solid : (Scanner.ofEditLine edit).current ≠ Code.space) :
    (behindNumber edit front).line = front.drop (front.takeWhile Code.isDigit).length := by
  have inside := (List.takeWhile_sublist (p := Code.isDigit) (l := front)).length_le
  have rest : (behindNumber edit front).rest =
      front.drop (front.takeWhile Code.isDigit).length ++ [Code.newline] := by
    rw [behindNumber, Scanner.rest_pass, Scanner.look, Scanner.rest_noteCursor,
      Scanner.skipSpaces_of_solid solid]
    change edit.bytes.drop _ = _
    rw [edited, List.drop_append_of_le_length inside]
  exact Scanner.line_eq rest (fun member => absent (List.mem_of_mem_drop member)) rfl

variable (config) in
/-- Behind the number of an edit line stands the statement that is found and checked. -/
theorem verdictAt_behindNumber (edited : edit.bytes = front ++ [Code.newline])
    (absent : Code.newline ∉ front) (solid : (Scanner.ofEditLine edit).current ≠ Code.space)
    (number : Nat) :
    let statement := front.drop (front.takeWhile Code.isDigit).length
    let verdict := verdictAt config number
      ⟨behindNumber edit front, .empty config.calculatorDepth, {}⟩
    edit.statement verdict = statement ∧ ∀ other, verdict.result = .ok other ↔
      number = other ∧ Statement.Checks config statement := by
  have oneLine : Code.newline ∉ front.drop (front.takeWhile Code.isDigit).length :=
    fun member => absent (List.mem_of_mem_drop member)
  let desk : Desk NoConsole := ⟨behindNumber edit front, .empty config.calculatorDepth, {}⟩
  have line : desk.scanner.line = front.drop (front.takeWhile Code.isDigit).length :=
    line_behindNumber edited absent solid
  refine ⟨?_, fun other => ?_⟩
  · rw [statement, edited, List.dropLast_concat, body_verdictAt, position_behindNumber solid]
  · rw [result_verdictAt_iff, Statement.checks_iff oneLine line rfl]

/-- The check of a crunched text is that of the line it spells. -/
theorem check_crunched (crunched : edit.crunched = crunch edit.text)
    (oneLine : Code.newline ∉ edit.text) :
    edit.statement (edit.check config) = (Line.ofCodes edit.text).body ∧
      ∀ number, (edit.check config).result = .ok number ↔
        (Line.ofCodes edit.text).number = number ∧
          Statement.Checks config (Line.ofCodes edit.text).body := by
  obtain ⟨front, bytes, absent⟩ := crunch_bytes oneLine
  have edited : edit.bytes = front ++ [Code.newline] := by
    rw [EditLine.bytes, crunched, bytes]
  have solid := solid_of_crunched crunched
  let desk : Desk NoConsole := ⟨.ofEditLine edit, .empty config.calculatorDepth, {}⟩
  have read := @readLineNumber_apply desk front edited absent solid
  have found := verdictAt_behindNumber config edited absent solid
  rw [check_apply, read, Line.ofCodes, bytes, List.dropLast_concat]
  dsimp only [behindNumber] at found ⊢
  generalize digits : front.takeWhile Code.isDigit = opening at found ⊢
  by_cases none : opening.isEmpty = true
  · obtain rfl := List.isEmpty_iff.mp none
    exact found 0
  · rw [if_neg none]
    cases number : Line.numberOf? opening with
    | some value => exact found value
    | none =>
        -- A number that the editor refuses leaves a text that opens with a digit.
        have unsound : ¬Statement.Checks config front := by
          cases front with
          | nil => exact absurd (by simp [← digits]) none
          | cons code others =>
              cases digit : code.isDigit with
              | false => exact absurd (by simp [← digits, digit]) none
              | true => exact Statement.not_checks_digit digit
        refine ⟨?_, fun other => ⟨fun failed => ?_, fun both => absurd both.2 unsound⟩⟩
        · rw [statement, edited, List.dropLast_concat]
          rfl
        · cases failed

theorem crunched_refresh (edit : EditLine) : edit.refresh.crunched = crunch edit.refresh.text :=
  rfl

variable (crunched : edit.crunched = crunch edit.text) (oneLine : Code.newline ∉ edit.text)
include crunched oneLine

/-- The statement of an edit line is that of the line it spells. -/
theorem statement_check :
    edit.statement (edit.check config) = (Line.ofCodes edit.text).body :=
  (check_crunched crunched oneLine).1

/-- An edit line is taken exactly if the line it spells has a statement that checks. -/
theorem result_check_iff {number : Nat} :
    (edit.check config).result = .ok number ↔
      (Line.ofCodes edit.text).number = number ∧
        Statement.Checks config (Line.ofCodes edit.text).body :=
  (check_crunched crunched oneLine).2 number

end EditLine
end HomeBasic
