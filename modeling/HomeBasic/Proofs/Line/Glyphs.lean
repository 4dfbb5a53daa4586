import HomeBasic.Proofs.Desk.Bounds
import HomeBasic.Proofs.Grammar.Acceptance
import HomeBasic.Proofs.Line.Editing
import HomeBasic.Proofs.Statement.Lasting

/-!
# The glyph at the end of a line

The glyph is decided by the first look of the scanner at the cursor or past it. With the
cursor at the end of a line, the look for a statement word is the first one there only behind
a line number or none. Behind anything else the end was looked at before, and with no word
expected: by what follows a name, a number or a sign, and behind a `THEN` by the step that
takes up the `THEN` itself.

Main statement: `shownGlyph_check_iff`.
-/

namespace HomeBasic

open Statement (afterWord atWord exists_of_another keepsScanner_afterWord keepsScanner_readWord
  lookForWord_apply statement statement_apply statements)

variable {front : List Code}

/-! ## Looking at the cursor -/

namespace Scanner

variable {scanner : Scanner}

/-- The code that was looked at is no space. -/
theorem current_look_ne_space (scanner : Scanner) : scanner.look.current ≠ Code.space := by
  have solid := List.head?_dropWhile_not (· == Code.space) scanner.rest
  rw [current, look_rest_eq_drop]
  generalize scanner.rest.dropWhile (· == Code.space) = ahead at solid ⊢
  cases ahead with
  | nil => decide
  | cons code rest => exact beq_eq_false_iff_ne.mp solid

theorem Over.position_lt (aligned : scanner.Over (front ++ [Code.newline]))
    (more : scanner.current ≠ Code.newline) : scanner.position < front.length := by
  refine Nat.lt_of_not_le fun beyond => more ?_
  rw [current, aligned, List.drop_append, List.drop_eq_nil_of_le beyond, List.nil_append]
  cases scanner.position - front.length with
  | zero => rfl
  | succ more => rw [List.drop_succ_cons, List.drop_nil, List.headD_nil]

@[simp] theorem watched_noteCursor (scanner : Scanner) :
    scanner.noteCursor.watched = scanner.watched := by
  unfold noteCursor
  repeat' split
  all_goals rfl

theorem noteCursor_expected (expected : scanner.wordExpected = true)
    (unspoken : scanner.glyph ≠ some .letter) : scanner.noteCursor.glyph ≠ some .letter := by
  unfold noteCursor
  rw [expected]
  split
  · split
    · simp
    · exact unspoken
  · exact unspoken

theorem noteCursor_unexpected (unexpected : scanner.wordExpected = false) :
    scanner.noteCursor = scanner ∨ scanner.noteCursor = { scanner with glyph := some .letter } := by
  unfold noteCursor
  rw [unexpected]
  split
  · split
    · exact .inr rfl
    · exact .inl rfl
  · exact .inl rfl

theorem noteCursor_ahead {cursor : Nat} (watched : scanner.watched = some cursor)
    (ahead : scanner.position < cursor) : scanner.noteCursor = scanner := by
  unfold noteCursor
  split
  next watching _ =>
    obtain rfl : cursor = _ := Option.some.inj (watched.symm.trans watching)
    exact if_neg (Nat.not_le_of_lt ahead)
  next => rfl

/-- A scanner over a line with the cursor at its end, where no word was expected so far. -/
structure Watching (front : List Code) (scanner : Scanner) : Prop where
  aligned : scanner.Over (front ++ [Code.newline])
  watched : scanner.watched = some front.length
  glyph : scanner.glyph ≠ some .keyword

/-- While no word is expected, no look at the cursor decides for one. -/
theorem lasting_watching (front : List Code) :
    Lasting fun scanner => scanner.Watching front ∧ scanner.wordExpected = false where
  pass count start :=
    ⟨⟨(lasting_over _).pass count start.1.aligned, start.1.watched, start.1.glyph⟩, start.2⟩
  noteCursor {scanner} start := by
    obtain ⟨watching, unexpected⟩ := start
    rcases noteCursor_unexpected unexpected with same | noted
    · rw [same]
      exact ⟨watching, unexpected⟩
    · rw [noted]
      exact ⟨⟨watching.aligned, watching.watched, nofun⟩, unexpected⟩

/-- The look for a word comes to the cursor only if the line ends there. -/
theorem Watching.atWord (watching : scanner.Watching front)
    (more : (atWord scanner).current ≠ Code.newline) :
    (Statement.atWord scanner).Watching front ∧
      (Statement.atWord scanner).wordExpected = false := by
  let opened : Scanner := { scanner with wordExpected := true }
  have aligned : opened.skipSpaces.Over (front ++ [Code.newline]) :=
    (lasting_over _).pass _ watching.aligned
  have solid : opened.skipSpaces.current ≠ Code.newline := by
    rw [current, ← rest_noteCursor]
    exact more
  have unnoted : opened.look = opened.skipSpaces :=
    noteCursor_ahead watching.watched (aligned.position_lt solid)
  have stands : Statement.atWord scanner = { opened.skipSpaces with wordExpected := false } :=
    congrArg (fun looked : Scanner => { looked with wordExpected := false }) unnoted
  rw [stands]
  exact ⟨⟨aligned, watching.watched, watching.glyph⟩, rfl⟩

/-- The look for a word decides for one at a cursor at the end of the line. -/
theorem glyph_atWord_of_end (ends : scanner.rest = [Code.newline])
    (watched : scanner.watched = some scanner.position)
    (unspoken : scanner.glyph ≠ some .letter) :
    (Statement.atWord scanner).glyph = some .keyword := by
  obtain ⟨position, rest, watched', glyph, expected⟩ := scanner
  dsimp only at ends watched unspoken
  subst ends watched
  rcases glyph with _ | _ | _
  · simp [Statement.atWord, look, skipSpaces, noteCursor, pass, Code.newline, Code.space]
  · rfl
  · exact absurd rfl unspoken

end Scanner

/-! ## Statements in front of the cursor -/

namespace Statement

variable {H : Type} [Console H] (environment : Environment) (mode : Mode) {desk : Desk H}

theorem watching_statement (watching : desk.scanner.Watching front)
    (more : (atWord desk.scanner).current ≠ Code.newline) :
    (statement environment mode desk).2.scanner.Watching front := by
  have inline := (Scanner.lasting_watching front).inline
  rw [statement_apply, Attempt.bind_apply, lookForWord_apply]
  dsimp only
  rw [if_neg more]
  exact (((keepsScanner_readWord inline _).bind fun word _ =>
    keepsScanner_afterWord inline environment mode word).kept (watching.atWord more)).1

/-- However many statements are read, no word is looked for at the end of the line. -/
theorem glyph_statements (watching : desk.scanner.Watching front)
    (more : (atWord desk.scanner).current ≠ Code.newline) (turns : Nat) :
    (statements environment mode turns desk).2.scanner.glyph ≠ some .keyword := by
  induction turns generalizing desk with
  | zero => exact watching.glyph
  | succ turns inductionHypothesis =>
      have reached := watching_statement environment mode watching more
      rw [statements, Attempt.bind_apply]
      rcases run : statement environment mode desk with ⟨fault | outcome, between⟩
      · rw [run] at reached
        exact reached.glyph
      · rw [run] at reached
        cases outcome with
        | done => exact reached.glyph
        | act command => exact reached.glyph
        | another =>
            obtain ⟨passed, looked, onward⟩ := exists_of_another environment mode run
            have solid : between.scanner.current ≠ Code.space :=
              looked ▸ passed.current_look_ne_space
            have same : (atWord between.scanner).current = between.scanner.current :=
              @Scanner.look_current { between.scanner with wordExpected := true } solid
            exact inductionHypothesis reached (same ▸ onward)

end Statement

/-! ## The check of a line with the cursor at its end -/

/-- The cursor at the end of a text stands at the byte that ends its crunched line. -/
theorem byteAtColumn_length {text : List Code}
    (bytes : (crunch text).bytes = front ++ [Code.newline]) :
    (crunch text).byteAtColumn text.length = front.length := by
  have ends := getLast?_columns text
  have increasing := pairwise_columns text
  have length : (crunch text).columns.length = front.length + 1 := by
    rw [Crunched.columns, List.length_map, ← List.length_map Prod.fst, ← Crunched.bytes, bytes,
      List.length_append, List.length_singleton]
  have column : (crunch text).column front.length = text.length := by
    rw [List.getLast?_eq_getElem?, length, Nat.add_sub_cancel] at ends
    rw [Crunched.column, ends, Option.getD_some]
  rw [← column]
  exact Crunched.byteAtColumn_column increasing (length ▸ Nat.lt_succ_self _)

namespace EditLine

open Grammar (Numbers numbers_iff takeWhile_isDigit_append)

variable {config : Config} {edit : EditLine} {digits statement : List Code}

theorem shownGlyph_iff {verdict : Verdict} :
    verdict.shownGlyph = .keyword ↔ verdict.glyph = some .keyword := by
  unfold Verdict.shownGlyph
  rcases verdict.glyph with _ | _ | _ <;> simp

theorem glyph_verdictAt (number : Nat) (desk : Desk NoConsole) :
    (verdictAt config number desk).glyph =
      (Statement.line (.blank config) .check desk).2.scanner.glyph := by
  unfold verdictAt
  rcases Statement.line (.blank config) .check desk with ⟨fault | found, reached⟩ <;> rfl

/-- Behind nothing but a line number, a word is looked for at the end of the line. -/
theorem glyph_line_of_end {desk : Desk NoConsole}
    (calculator : desk.calculator = .empty config.calculatorDepth)
    (ends : desk.scanner.rest = [Code.newline])
    (watched : desk.scanner.watched = some desk.scanner.position)
    (unspoken : desk.scanner.glyph ≠ some .letter) :
    (Statement.line (.blank config) .check desk).2.scanner.glyph = some .keyword := by
  have nothing : desk.scanner.line = [] := Scanner.line_eq ends List.not_mem_nil rfl
  have ready : Grammar.Ready (Grammar.idle config) desk :=
    ⟨by rw [nothing]; trivial, calculator⟩
  have read := Grammar.statement_of_nil ready nothing
  rw [Statement.line, Attempt.bind_apply, Statement.turnsLeft, Attempt.bind_apply]
  simp only [Attempt.get_apply, Attempt.pure_apply, statements, Attempt.bind_apply, read]
  exact Scanner.glyph_atWord_of_end ends watched unspoken

/-- The desk where the statement of an edit line is read, behind its digits. -/
def behindDigits (config : Config) (edit : EditLine) (digits : List Code) : Desk NoConsole :=
  ⟨(Scanner.ofEditLine edit).look.pass digits.length, .empty config.calculatorDepth, {}⟩

section

variable (bytes : edit.bytes = digits ++ statement ++ [Code.newline])
  (every : ∀ digit ∈ digits, digit.isDigit = true)
  (solid : statement.headD Code.newline ≠ Code.space)
include bytes every solid

theorem current_ofEditLine_ne_space : (Scanner.ofEditLine edit).current ≠ Code.space := by
  change edit.bytes.headD Code.newline ≠ Code.space
  rw [bytes]
  cases digits with
  | nil =>
      cases statement with
      | nil => decide
      | cons code rest => exact solid
  | cons digit digits =>
      rintro rfl
      exact absurd (every Code.space List.mem_cons_self) (by decide)

theorem look_ofEditLine :
    (Scanner.ofEditLine edit).look = (Scanner.ofEditLine edit).noteCursor := by
  rw [Scanner.look, Scanner.skipSpaces_of_solid (current_ofEditLine_ne_space bytes every solid)]

theorem rest_behindDigits :
    (behindDigits config edit digits).scanner.rest = statement ++ [Code.newline] := by
  rw [behindDigits, look_ofEditLine bytes every solid, Scanner.rest_pass, Scanner.rest_noteCursor]
  change edit.bytes.drop digits.length = _
  rw [bytes, List.append_assoc, List.drop_left]

/-- The statement is only read behind a line number that is one, or behind none. -/
theorem glyph_check (oneLine : Code.newline ∉ digits ++ statement)
    (noDigit : (statement.headD Code.newline).isDigit = false) :
    (edit.check config).glyph =
      if digits = [] ∨ (Line.numberOf? digits).isSome then
        (Statement.line (.blank config) .check (behindDigits config edit digits)).2.scanner.glyph
      else
        (behindDigits config edit digits).scanner.glyph := by
  have read := @readLineNumber_apply ⟨.ofEditLine edit, .empty config.calculatorDepth, {}⟩
    (digits ++ statement) bytes oneLine (current_ofEditLine_ne_space bytes every solid)
  rw [takeWhile_isDigit_append every noDigit] at read
  rw [check_apply, read]
  cases digits with
  | nil => exact (glyph_verdictAt 0 _).trans (if_pos (.inl rfl)).symm
  | cons digit digits =>
      cases number : Line.numberOf? (digit :: digits) with
      | none => simp [number, behindDigits]
      | some value => simp [number, behindDigits, glyph_verdictAt]

end

theorem exists_numbers_iff (every : ∀ digit ∈ digits, digit.isDigit = true) :
    (∃ number, Numbers digits number) ↔ digits = [] ∨ (Line.numberOf? digits).isSome := by
  simp only [numbers_iff every, exists_or, exists_and_left, exists_eq, and_true,
    Option.isSome_iff_exists]

/--
With the cursor at the end of a line, the check shows that a word belongs there exactly behind
a line number or nothing.
-/
theorem shownGlyph_check_iff (bytes : edit.bytes = digits ++ statement ++ [Code.newline])
    (atEnd : edit.cursorByte = (digits ++ statement).length)
    (oneLine : Code.newline ∉ digits ++ statement)
    (every : ∀ digit ∈ digits, digit.isDigit = true)
    (noDigit : (statement.headD Code.newline).isDigit = false)
    (solid : statement.headD Code.newline ≠ Code.space) :
    (edit.check config).shownGlyph = .keyword ↔ ∃ number, Numbers (digits ++ statement) number := by
  have watched : (Scanner.ofEditLine edit).watched = some (digits ++ statement).length :=
    congrArg some atEnd
  have looked := look_ofEditLine bytes every solid
  have rest : (behindDigits config edit digits).scanner.rest = statement ++ [Code.newline] :=
    rest_behindDigits bytes every solid
  have unnoted (some : 0 < (digits ++ statement).length) :
      behindDigits config edit digits =
        ⟨(Scanner.ofEditLine edit).pass digits.length, .empty config.calculatorDepth, {}⟩ := by
    rw [behindDigits, looked, Scanner.noteCursor_ahead watched some]
  rw [shownGlyph_iff, glyph_check bytes every solid oneLine noDigit]
  cases statement with
  | nil =>
      rw [List.append_nil] at watched unnoted ⊢
      have position : (behindDigits config edit digits).scanner.position = digits.length := by
        rw [behindDigits, looked, Scanner.position_pass, Scanner.position_noteCursor]
        exact Nat.zero_add _
      rw [exists_numbers_iff every]
      split
      next valid =>
        refine iff_of_true (glyph_line_of_end rfl rest ?_ ?_) valid
        · rw [position, behindDigits, looked]
          exact (Scanner.watched_noteCursor _).trans watched
        · rw [behindDigits, looked]
          exact Scanner.noteCursor_expected rfl nofun
      next invalid =>
        rw [unnoted (List.length_pos_iff.mpr fun empty => invalid (.inl empty))]
        exact iff_of_false nofun invalid
  | cons code others =>
      have ahead := unnoted (by simp)
      have watching : (behindDigits config edit digits).scanner.Watching
          (digits ++ code :: others) := by
        rw [ahead]
        refine ⟨(Scanner.lasting_over _).pass _ ?_, watched, nofun⟩
        exact bytes ▸ Scanner.over_ofEditLine edit
      have current : (behindDigits config edit digits).scanner.current = code := by
        rw [Scanner.current, rest]
        rfl
      have more : (atWord (behindDigits config edit digits).scanner).current ≠ Code.newline := by
        have same : (atWord (behindDigits config edit digits).scanner).current =
            (behindDigits config edit digits).scanner.current :=
          @Scanner.look_current { (behindDigits config edit digits).scanner with
            wordExpected := true } (current.trans_ne solid)
        rw [same, current]
        rintro rfl
        exact oneLine (by simp)
      refine iff_of_false ?_ ?_
      · split
        · exact Statement.glyph_statements _ _ watching more _
        · exact watching.glyph
      · rintro ⟨number, numbers⟩
        have digit := numbers.every_isDigit code (by simp)
        rw [List.headD_cons, digit] at noDigit
        cases noDigit

end EditLine
end HomeBasic
