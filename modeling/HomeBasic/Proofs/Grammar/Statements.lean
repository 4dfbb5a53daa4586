import HomeBasic.Proofs.Grammar.Forms
import HomeBasic.Proofs.Line.Checking

/-!
# Statements and the lines they make

A statement is known by its first code: the code of a word, or the letter that an assignment
starts with. Only an `IF` leads on, and then a statement follows on the same line, so a line
is read in turns, and there are more turns than codes.

Main statement: a compact line checks exactly if it is empty or a sentence
(`checks_iff_sentence`).
-/

namespace HomeBasic
namespace Grammar

open Statement (afterWord atWord lookForWord_apply readWord statement statement_apply statements
  turnsLeft)

variable {H : Type} [Console H] {config : Config} {desk reached : Desk H} {code : Code}
  {line : List Code} {turns : Nat}

/-! ## The word of a statement -/

omit [Console H] in
theorem readWord_code (word : StatementWord) :
    (readWord word.code : Attempt (Desk H) StatementWord) = (do
      Desk.advance
      return word) := by
  have token : Token.ofCode? word.code = some (.word word) := Token.ofCode?_eq_some_iff.mpr rfl
  rw [readWord, token]

omit [Console H] in
theorem readWord_other (noWord : ∀ word : StatementWord, word.code ≠ code) :
    (readWord code : Attempt (Desk H) StatementWord) =
      if code.isLetter then pure .let else throw .syntaxError := by
  rw [readWord]
  split
  next word found => exact absurd (Token.ofCode?_eq_some_iff.mp found) (noWord word)
  next => rfl

theorem isLetter_code (word : StatementWord) : word.code.isLetter = false := by
  cases word <;> decide

theorem code_ne_newline (word : StatementWord) : word.code ≠ Code.newline := by
  cases word <;> decide

theorem plain_code {word : StatementWord} (noRemark : word ≠ .rem) : word.code.Plain := by
  cases word <;> first | exact absurd rfl noRemark | decide

/-- A place to assign to starts with a letter. -/
theorem exists_letter {isText : Bool} {codes : List Code} (place : Place config isText codes) :
    ∃ code others, codes = code :: others ∧ code.isLetter = true := by
  cases place with
  | number named => exact exists_cons_of_isLetter named.letter
  | text named => exact exists_cons_of_isLetter (isLetter_headD_append named.letter _)
  | element named => exact exists_cons_of_isLetter (isLetter_headD_append named.letter _)

theorem Complement.exists_letter {codes : List Code} (complement : Complement config .let codes) :
    ∃ code others, codes = code :: others ∧ code.isLetter = true := by
  cases complement
  case assignment value place _ =>
    obtain ⟨code, others, rfl, letter⟩ := Grammar.exists_letter place
    exact ⟨code, _, rfl, letter⟩
  all_goals simp_all

/-! ## One statement -/

/-- The line is a statement, or an `IF` with its condition that leads on to the rest. -/
inductive Stated (config : Config) : List Code → (leads : Bool) → List Code → Prop
  | nothing : Stated config [] false []
  | worded {word : StatementWord} {codes : List Code} :
      Complement config word codes → Stated config (word.code :: codes) false []
  | assignment {codes : List Code} : Complement config .let codes → Stated config codes false []
  | branch {condition rest : List Code} :
      Phrase config false condition → rest.headD Code.newline ≠ Code.newline →
      Stated config (StatementWord.if.code :: (condition ++ Keyword.then.code :: rest)) true rest

omit [Console H] in
/-- The place of a word is looked at with nothing pending. -/
theorem Ready.atWord (ready : Ready (idle config) desk) :
    Ready (idle config) { desk with
      scanner := atWord desk.scanner
      calculator := desk.calculator.clear } ∧ (atWord desk.scanner).line = desk.scanner.line := by
  have placed : Ready (idle config) { desk with
      scanner := { desk.scanner with wordExpected := true } } := ⟨ready.compact, ready.calculator⟩
  have looked : (Statement.atWord desk.scanner).line = desk.scanner.line := placed.look_line
  exact ⟨⟨by rw [looked]; exact ready.compact, by rw [ready.calculator]; rfl⟩, looked⟩

theorem statement_of_nil (ready : Ready (idle config) desk) (empty : desk.scanner.line = []) :
    statement (.blank config) .check desk =
      (.ok .done, { desk with
        scanner := atWord desk.scanner
        calculator := desk.calculator.clear }) := by
  have current : (atWord desk.scanner).current = Code.newline := by
    rw [Scanner.current_eq_headD, ready.atWord.2, empty, List.headD_nil]
  rw [statement_apply, Attempt.bind_apply, lookForWord_apply]
  dsimp only
  rw [current]
  rfl

theorem statement_of_cons (ready : Ready (idle config) desk) {rest : List Code}
    (opens : desk.scanner.line = code :: rest) :
    statement (.blank config) .check desk =
      (readWord code >>= afterWord (.blank config) .check) { desk with
        scanner := atWord desk.scanner
        calculator := desk.calculator.clear } := by
  have current : (atWord desk.scanner).current = code := by
    rw [Scanner.current_eq_headD, ready.atWord.2, opens, List.headD_cons]
  rw [statement_apply, Attempt.bind_apply, lookForWord_apply]
  dsimp only
  rw [current, if_neg (Scanner.ne_newline_of_line opens)]

/-- A line that opens with a word is read from behind it. -/
theorem statement_of_word (ready : Ready (idle config) desk) {word : StatementWord}
    {rest : List Code} (opens : desk.scanner.line = word.code :: rest) :
    statement (.blank config) .check desk = afterWord (.blank config) .check word { desk with
      scanner := (atWord desk.scanner).advance
      calculator := desk.calculator.clear } := by
  rw [statement_of_cons ready opens, readWord_code]
  rfl

/-- A line that opens with no word is read as an assignment. -/
theorem statement_of_letter (ready : Ready (idle config) desk) {rest : List Code}
    (opens : desk.scanner.line = code :: rest) (letter : code.isLetter = true) :
    statement (.blank config) .check desk = afterWord (.blank config) .check .let { desk with
      scanner := atWord desk.scanner
      calculator := desk.calculator.clear } := by
  have noWord : ∀ word : StatementWord, word.code ≠ code := by
    rintro word rfl
    rw [isLetter_code] at letter
    cases letter
  rw [statement_of_cons ready opens, readWord_other noWord, if_pos letter]
  rfl

/-- Whatever stands behind it, a remark goes well and ends the line. -/
theorem afterWord_remark (desk : Desk H) :
    afterWord (.blank config) .check .rem desk =
      (.ok .done, { desk with scanner := desk.scanner.skipToEnd }) := by
  rw [afterWord_ownForm _ rfl]
  rfl

theorem sound_worded {outcome : Outcome} {word : StatementWord} {rest : List Code}
    (ready : Ready (idle config) desk) (opens : desk.scanner.line = word.code :: rest)
    (run : statement (.blank config) .check desk = (.ok outcome, reached)) :
    Ready (idle config) reached ∧
      Stated config desk.scanner.line outcome.leads reached.scanner.line := by
  obtain ⟨placed, same⟩ := ready.atWord
  rw [statement_of_word ready opens] at run
  rw [opens]
  by_cases remark : word = .rem
  · subst remark
    rw [afterWord_remark] at run
    cases run
    have gone := Scanner.line_skipToEnd (atWord desk.scanner).advance
    refine ⟨⟨by rw [gone]; trivial, placed.calculator⟩, ?_⟩
    rw [gone]
    exact .worded (.remark rest)
  · obtain ⟨passed, left⟩ := placed.advance (same.trans opens) (plain_code remark)
    by_cases branch : word = .if
    · subst branch
      obtain ⟨ends, leads, more, condition, phrase, line⟩ := recognizes_if.sound passed run
      refine ⟨ends, ?_⟩
      rw [leads, ← left, line]
      exact .branch phrase more
    · obtain ⟨ends, leads, gone, complement⟩ := (recognizes_afterWord branch).sound passed run
      refine ⟨ends, ?_⟩
      rw [leads, gone]
      exact .worded (left ▸ complement)

theorem sound_unworded {outcome : Outcome} {rest : List Code} (ready : Ready (idle config) desk)
    (opens : desk.scanner.line = code :: rest)
    (noWord : ∀ word : StatementWord, word.code ≠ code)
    (run : statement (.blank config) .check desk = (.ok outcome, reached)) :
    Ready (idle config) reached ∧
      Stated config desk.scanner.line outcome.leads reached.scanner.line := by
  obtain ⟨placed, same⟩ := ready.atWord
  rw [statement_of_cons ready opens, readWord_other noWord] at run
  cases letter : code.isLetter with
  | false =>
      rw [letter, if_neg Bool.false_ne_true] at run
      cases run
  | true =>
      rw [letter, if_pos rfl, pure_bind] at run
      obtain ⟨ends, leads, gone, complement⟩ := recognizes_let.sound placed run
      refine ⟨ends, ?_⟩
      rw [leads, gone, ← same]
      exact .assignment complement

theorem recognizes_statement :
    Recognizes (idle config) Anything
      (statement (.blank config) .check : Attempt (Desk H) Outcome) Outcome.leads
      (Stated config) where
  sound := by
    intro desk reached outcome ready run
    cases opens : desk.scanner.line with
    | nil =>
        obtain ⟨placed, same⟩ := ready.atWord
        rw [statement_of_nil ready opens] at run
        cases run
        refine ⟨placed, ?_⟩
        rw [same, opens]
        exact .nothing
    | cons code rest =>
        rw [← opens]
        by_cases worded : ∃ word : StatementWord, word.code = code
        · obtain ⟨word, rfl⟩ := worded
          exact sound_worded ready opens run
        · exact sound_unworded ready opens (fun word same => worded ⟨word, same⟩) run
  complete := by
    intro desk leads rest ready stated _
    obtain ⟨placed, same⟩ := ready.atWord
    generalize opens : desk.scanner.line = line at stated
    cases stated with
    | nothing => exact ⟨_, _, statement_of_nil ready opens, rfl, same.trans opens⟩
    | @worded word codes complement =>
        rw [statement_of_word ready opens]
        by_cases remark : word = .rem
        · subst remark
          exact ⟨_, _, afterWord_remark _, rfl, Scanner.line_skipToEnd _⟩
        · obtain ⟨passed, left⟩ := placed.advance (same.trans opens) (plain_code remark)
          have noBranch : word ≠ .if := by
            rintro rfl
            cases complement <;> simp_all
          exact (recognizes_afterWord noBranch).complete passed
            ⟨rfl, rfl, by rw [left]; exact complement⟩ trivial
    | assignment complement =>
        obtain ⟨code, others, starts, letter⟩ := complement.exists_letter
        rw [statement_of_letter ready (opens.trans starts) letter]
        exact recognizes_let.complete placed
          ⟨rfl, rfl, by rw [same, opens]; exact complement⟩ trivial
    | branch phrase more =>
        rw [statement_of_word ready opens]
        obtain ⟨passed, left⟩ := placed.advance (same.trans opens) (plain_code (by decide))
        exact recognizes_if.complete passed ⟨rfl, more, _, phrase, left⟩ trivial

/-! ## One line -/

theorem Sentence.exists_cons (sentence : Sentence config line) :
    ∃ code others, line = code :: others ∧ code ≠ Code.newline := by
  cases sentence with
  | @worded word codes _ => exact ⟨_, codes, rfl, code_ne_newline word⟩
  | assignment complement =>
      obtain ⟨code, others, opens, letter⟩ := complement.exists_letter
      refine ⟨code, others, opens, ?_⟩
      rintro rfl
      cases letter
  | branch => exact ⟨_, _, rfl, by decide⟩

/-- The statements that are read off a line are all of it. -/
theorem sound_statements {found : Option Command} (ready : Ready (idle config) desk)
    (run : statements (.blank config) .check turns desk = (.ok found, reached)) :
    desk.scanner.line = [] ∨ Sentence config desk.scanner.line := by
  induction turns generalizing desk with
  | zero => cases run
  | succ turns inductionHypothesis =>
      obtain ⟨outcome, between, first, run⟩ := Attempt.exists_of_bind_eq_ok run
      obtain ⟨halfway, stated⟩ := recognizes_statement.sound ready first
      generalize desk.scanner.line = line at stated
      generalize leads : outcome.leads = onward at stated
      generalize behind : between.scanner.line = rest at stated
      cases stated with
      | nothing => exact .inl rfl
      | worded complement => exact .inr (.worded complement)
      | assignment complement => exact .inr (.assignment complement)
      | branch phrase more =>
          cases outcome with
          | done => cases leads
          | act command => cases leads
          | another =>
              rcases inductionHypothesis halfway run with empty | sentence
              · rw [behind] at empty
                rw [empty] at more
                exact absurd rfl more
              · rw [behind] at sentence
                exact .inr (.branch phrase sentence)

theorem statements_of_leads {outcome : Outcome} (first : statement (.blank config) .check desk =
    (.ok outcome, reached)) (last : outcome.leads = false) :
    ∃ found, (statements (.blank config) .check (turns + 1) desk).1 = .ok found := by
  rw [statements, Attempt.bind_apply, first]
  cases outcome with
  | done => exact ⟨none, rfl⟩
  | act command => exact ⟨some command, rfl⟩
  | another => cases last

theorem complete_statements (sentence : Sentence config line)
    (ready : Ready (idle config) desk) (opens : desk.scanner.line = line)
    (enough : line.length < turns) :
    ∃ found, (statements (.blank config) .check turns desk).1 = .ok found := by
  induction sentence generalizing desk turns with
  | worded complement =>
      obtain ⟨turns, rfl⟩ : ∃ fewer, turns = fewer + 1 := ⟨turns - 1, by omega⟩
      obtain ⟨outcome, reached, first, last, -⟩ :=
        recognizes_statement.complete ready (opens ▸ Stated.worded complement) trivial
      exact statements_of_leads first last
  | assignment complement =>
      obtain ⟨turns, rfl⟩ : ∃ fewer, turns = fewer + 1 := ⟨turns - 1, by omega⟩
      obtain ⟨outcome, reached, first, last, -⟩ :=
        recognizes_statement.complete ready (opens ▸ Stated.assignment complement) trivial
      exact statements_of_leads first last
  | @branch condition rest phrase sentence inductionHypothesis =>
      obtain ⟨turns, rfl⟩ : ∃ fewer, turns = fewer + 1 := ⟨turns - 1, by omega⟩
      obtain ⟨code, others, starts, inLine⟩ := sentence.exists_cons
      have more := ne_of_eq_of_ne (congrArg (·.headD Code.newline) starts) inLine
      obtain ⟨outcome, between, first, leads, left⟩ :=
        recognizes_statement.complete ready (opens ▸ Stated.branch phrase more) trivial
      have halfway := (recognizes_statement.sound ready first).1
      have fewer : rest.length < turns := by
        simp only [List.length_cons, List.length_append] at enough
        omega
      obtain ⟨found, run⟩ := inductionHypothesis halfway left fewer
      rw [statements, Attempt.bind_apply, first]
      cases outcome with
      | done => cases leads
      | act command => cases leads
      | another => exact ⟨found, run⟩

/-- A compact line checks exactly if nothing stands on it, or a sentence of the language. -/
theorem checks_iff_sentence (compact : Compact false line) (oneLine : Code.newline ∉ line) :
    Statement.Checks config line ↔ line = [] ∨ Sentence config line := by
  have stands : (Scanner.ofBytes line 0).line = line := Scanner.line_ofBytes oneLine
  let desk : Desk NoConsole := ⟨.ofBytes line 0, idle config, {}⟩
  have ready : Ready (idle config) desk := ⟨by rw [stands]; exact compact, rfl⟩
  have turns : Statement.line (.blank config) .check desk =
      statements (.blank config) .check (desk.scanner.rest.length + 1) desk := rfl
  constructor
  · rintro ⟨found, checked⟩
    rw [turns] at checked
    rw [← stands]
    exact sound_statements ready (Prod.ext checked rfl)
  · rintro (rfl | sentence)
    · exact @statements_of_leads _ _ _ _ _ 0 _ (statement_of_nil ready stands) rfl
    · have enough := length_line_lt desk
      exact complete_statements sentence ready stands (by rwa [stands] at enough)

end Grammar
end HomeBasic
