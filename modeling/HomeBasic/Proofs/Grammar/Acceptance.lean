import HomeBasic.Proofs.Grammar.Statements
import HomeBasic.Proofs.Line.Crunching

/-!
# What the editor takes

The editor takes exactly the lines of the language: a line number or none, and then nothing or
a sentence. No sentence starts with a digit, so the number and the sentence are told apart by
the digits alone.

Main statement: `result_check_refresh_iff`.
-/

namespace HomeBasic
namespace Grammar

variable {config : Config} {digits statement : List Code} {number : Nat}

/-! ## Crunched statements are compact -/

theorem compact_of_suited {codes : List Code} :
    (∀ {atStart : Bool}, Crunch.Suited (.statement atStart) codes → Compact false codes) ∧
      (Crunch.Suited .string codes → Compact true codes) := by
  induction codes with
  | nil => exact ⟨fun _ => trivial, fun _ => trivial⟩
  | cons code rest inductionHypothesis =>
      obtain ⟨statement, string⟩ := inductionHypothesis
      constructor
      · rintro atStart ⟨⟨solid, -, -⟩, onward⟩
        refine ⟨solid, ?_⟩
        by_cases quoted : code = Code.quote
        · subst quoted
          exact .inr (string onward)
        rw [beq_false_of_ne quoted]
        simp only [Crunch.Reading.past, if_neg quoted] at onward
        cases token : Token.ofCode? code with
        | none =>
            rw [token] at onward
            exact .inr (statement onward)
        | some token' =>
            rw [token] at onward
            by_cases remark : token' = .word .rem
            · subst remark
              exact .inl (Token.ofCode?_eq_some_iff.mp token).symm
            · simp only [Crunch.Reading.after, if_neg remark] at onward
              exact .inr (statement onward)
      · rintro ⟨-, onward⟩
        by_cases quoted : code = Code.quote
        · subst quoted
          exact statement onward
        · simp only [Crunch.Reading.past, if_neg quoted] at onward
          have inside : (code != Code.quote) = true := bne_iff_ne.mpr quoted
          rw [Compact, inside]
          exact string onward

/-! ## Line numbers -/

/-- The digits are a line number, or there are none of them. -/
inductive Numbers : (digits : List Code) → (number : Nat) → Prop
  | absent : Numbers [] 0
  | written {digits : List Code} :
      digits ≠ [] → (∀ digit ∈ digits, digit.isDigit = true) → digits.length ≤ 4 →
      1 ≤ Decimal.valueOf digits → Decimal.valueOf digits ≤ 9999 →
      Numbers digits (Decimal.valueOf digits)

theorem Numbers.every_isDigit (numbers : Numbers digits number) :
    ∀ digit ∈ digits, digit.isDigit = true := by
  cases numbers with
  | absent => simp
  | written _ every _ _ _ => exact every

theorem numbers_iff (every : ∀ digit ∈ digits, digit.isDigit = true) :
    Numbers digits number ↔
      (digits = [] ∧ number = 0) ∨ Line.numberOf? digits = some number := by
  rw [Line.numberOf?]
  constructor
  · rintro (_ | ⟨some, -, short, low, high⟩)
    · exact .inl ⟨rfl, rfl⟩
    · exact .inr (if_pos ⟨List.length_pos_iff.mpr some, short, low, high⟩)
  · rintro (⟨rfl, rfl⟩ | found)
    · exact .absent
    · rw [Option.ite_none_right_eq_some] at found
      obtain ⟨⟨some, short, low, high⟩, same⟩ := found
      cases same
      exact .written (List.length_pos_iff.mp some) every short low high

theorem isDigit_of_isLetter {code : Code} (letter : code.isLetter = true) :
    code.isDigit = false := by
  cases digit : code.isDigit with
  | false => rfl
  | true =>
      rw [Code.isLetter_of_isDigit digit] at letter
      cases letter

theorem Sentence.noDigit (sentence : Sentence config statement) :
    (statement.headD Code.newline).isDigit = false := by
  cases sentence with
  | @worded word codes _ => cases word <;> rfl
  | assignment complement =>
      obtain ⟨code, others, rfl, letter⟩ := complement.exists_letter
      exact isDigit_of_isLetter letter
  | branch => rfl

/-- A line is cut between its digits and what does not start with one. -/
theorem takeWhile_isDigit_append (every : ∀ digit ∈ digits, digit.isDigit = true)
    (noDigit : (statement.headD Code.newline).isDigit = false) :
    (digits ++ statement).takeWhile Code.isDigit = digits := by
  rw [List.takeWhile_append_of_pos every]
  cases statement with
  | nil => rw [List.takeWhile_nil, List.append_nil]
  | cons code rest => rw [List.takeWhile_cons_of_neg (by simpa using noDigit), List.append_nil]

theorem not_checks_of_digits (every : ∀ digit ∈ digits, digit.isDigit = true)
    (some : digits ≠ []) : ¬Statement.Checks config (digits ++ statement) := by
  cases digits with
  | nil => exact absurd rfl some
  | cons digit digits => exact Statement.not_checks_digit (every digit (by simp))

/-! ## Edit lines -/

/--
The editor takes a text, with the number `number`, exactly if its crunched line is a line number
or none, and then nothing or a sentence of the language.
-/
theorem result_check_refresh_iff (edit : EditLine) (shown : ∀ code ∈ edit.text, code < 0x40)
    (number : Nat) :
    (edit.refresh.check config).result = .ok number ↔
      ∃ digits statement, (crunch edit.text).bytes = digits ++ statement ++ [Code.newline] ∧
        Numbers digits number ∧ (statement = [] ∨ Sentence config statement) := by
  have oneLine : Code.newline ∉ edit.text := fun member =>
    absurd (shown _ member) (by decide)
  obtain ⟨digits, text, every, opens, part, bytes⟩ := Crunch.exists_crunch_eq edit.text
  let statement := Crunch.codes text 0 false (.statement true)
  have noDigit : (statement.headD Code.newline).isDigit = false :=
    Crunch.isDigit_head_codes opens false true
  have compact : Compact false statement :=
    compact_of_suited.1 (Crunch.suited_codes (fun code member => shown _ (part _ member)) _ _ _)
  have front : (crunch edit.text).bytes.dropLast = digits ++ statement := by
    rw [bytes, List.dropLast_concat]
  have whole : Code.newline ∉ digits ++ statement := front ▸ oneLine_crunch oneLine
  have checks : Statement.Checks config statement ↔ statement = [] ∨ Sentence config statement :=
    checks_iff_sentence compact fun member => whole (List.mem_append_right _ member)
  have cut := takeWhile_isDigit_append every noDigit
  -- There is only one way to tell the number and the statement of a line apart.
  have parts : (∃ digits statement,
        (crunch edit.text).bytes = digits ++ statement ++ [Code.newline] ∧
          Numbers digits number ∧ (statement = [] ∨ Sentence config statement)) ↔
      Numbers digits number ∧ (statement = [] ∨ Sentence config statement) := by
    constructor
    · rintro ⟨others, sentence, line, numbers, spoken⟩
      have same : digits ++ statement = others ++ sentence := by
        rw [← front, line, List.dropLast_concat]
      have noDigit : (sentence.headD Code.newline).isDigit = false := by
        rcases spoken with rfl | sentence
        · rfl
        · exact sentence.noDigit
      obtain rfl : digits = others := by
        rw [← cut, same, takeWhile_isDigit_append numbers.every_isDigit noDigit]
      obtain rfl : statement = sentence := List.append_cancel_left same
      exact ⟨numbers, spoken⟩
    · exact fun both => ⟨digits, statement, bytes, both⟩
  have taken := @EditLine.result_check_iff config edit.refresh rfl oneLine number
  rw [taken, parts, numbers_iff every, ← checks]
  change (Line.ofCodes edit.text).number = number ∧
    Statement.Checks config (Line.ofCodes edit.text).body ↔ _
  rw [Line.ofCodes, front, cut]
  cases found : Line.numberOf? digits with
  | some value =>
      have some : digits ≠ [] := by
        rintro rfl
        cases found
      simp [some]
  | none =>
      by_cases empty : digits = []
      · simp [empty, eq_comm]
      · simp [empty, not_checks_of_digits every empty]

/-- A branch with a number is one of the lines that are taken. -/
theorem result_check_refresh_iff_branch :
    ∃ digits statement,
      (crunch (Code.encode "20 IF A<9 THEN PRINT \"A\";A")).bytes =
          digits ++ statement ++ [Code.newline] ∧
        Numbers digits 20 ∧ (statement = [] ∨ Sentence {} statement) :=
  (result_check_refresh_iff { EditLine.empty with
    text := Code.encode "20 IF A<9 THEN PRINT \"A\";A" } (by decide +kernel) 20).mp
      (by decide +kernel)

end Grammar
end HomeBasic
