import HomeBasic.Proofs.Expression.Precedence
import HomeBasic.Proofs.Grammar.Atoms
import HomeBasic.Proofs.Line.Crunching
import HomeBasic.Proofs.Line.Cutting
import HomeBasic.Proofs.Number.Spelling

/-!
# Numbers in expressions

An expression reads the digits at the scanner one by one, each checked on its own, while a
text that is a number is read with a magnitude wider than a word. Both come to the same. An
expression has no negative literals though: what is written of a negative word is a minus and a
literal, and of the smallest word it is a literal that no word holds.

Main statement: numbers are read as they are written, and an expression reads digits as a text
of these digits is read (`literals_read_back`).
-/

namespace HomeBasic

/-! ## Digits at the scanner -/

namespace Scanner

variable {size : WordSize} {scanner : Scanner} {digits : List Code} {value : Int}

/-- Digits that are checked one by one overflow exactly if all of them together do. -/
theorem readDigits_fst (positive : 0 ≤ value) (fits : size.Fits value) :
    (readDigits size digits value scanner).1 = size.checked (continued value digits) := by
  induction digits generalizing value scanner with
  | nil => exact (WordSize.checked_eq_ok_iff.mpr ⟨fits, rfl⟩).symm
  | cons digit digits inductionHypothesis =>
      have grown : 0 ≤ 10 * value + (digit.digitValue : Int) := by omega
      have further : value ≤ continued (10 * value + digit.digitValue) digits :=
        Int.le_trans (by omega) (le_continued grown digits)
      change _ = size.checked (continued (10 * value + digit.digitValue) digits)
      simp only [readDigits, Attempt.bind_apply, Attempt.ofExcept_apply, Attempt.modify_apply]
      by_cases inside : size.Fits (10 * value + digit.digitValue)
      · rw [WordSize.checked, if_pos inside]
        exact inductionHypothesis grown inside
      · have beyond : ¬size.Fits (continued (10 * value + digit.digitValue) digits) :=
          fun all => inside
            ⟨Int.le_trans fits.1 (by omega), Int.le_trans (le_continued grown digits) all.2⟩
        rw [WordSize.checked, if_neg inside, WordSize.checked, if_neg beyond]

/-- A number at the scanner is the digits that stand together there. -/
theorem readNumber_fst (ahead : scanner.look.rest.takeWhile Code.isDigit = digits) :
    (readNumber size scanner).1 = size.checked (Decimal.valueOf digits) := by
  rw [← continued_zero, ← readDigits_fst (Int.le_refl 0) size.fits_zero]
  simp only [readNumber, Attempt.bind_apply, Attempt.modify_apply, Attempt.get_apply, ahead]
  rfl

/-- A number that was read is passed over. -/
theorem readNumber_snd (ahead : scanner.look.rest.takeWhile Code.isDigit = digits)
    (fits : size.Fits (Decimal.valueOf digits)) :
    (readNumber size scanner).2 = scanner.look.pass digits.length := by
  rw [← continued_zero] at fits
  have run := (@readDigits_eq_ok_iff size scanner.look _ digits 0 _ (Int.le_refl 0)
    size.fits_zero).mpr ⟨fits, rfl, rfl⟩
  simp only [readNumber, Attempt.bind_apply, Attempt.modify_apply, Attempt.get_apply, ahead, run]

end Scanner

/-- A row of digits is read as a text as it is read where each digit is checked. -/
theorem Decimal.checked_valueOf {size : WordSize} {digits : List Code} (some : digits ≠ [])
    (number : ∀ code ∈ digits, code.isDigit = true) :
    size.checked (valueOf digits) =
      (parse? size digits).elim (.error .arithmeticOverflow) .ok := by
  rw [parse?_digits some number, WordSize.checked]
  split <;> rfl

/-! ## Numbers as they are typed -/

namespace Crunch

/-- A code opens no token if it is no letter and opens no symbol. -/
theorem tokenAt?_plain {code : Code} (noLetter : code.isLetter = false)
    (noSymbol : code ∉ [Code.star, Code.less, Code.greater]) (afterName : Bool)
    (rest : List Code) : tokenAt? afterName (code :: rest) = none := by
  rw [tokenAt?, symbolAt?_plain noSymbol, wordAt?_of_not_isLetter noLetter, ite_self]

/-- Digits are kept as they are. -/
theorem codes_digits {digits : List Code} (number : ∀ code ∈ digits, code.isDigit = true)
    (afterName : Bool) : codes digits 0 afterName (.statement false) = digits := by
  induction digits generalizing afterName with
  | nil => rfl
  | cons digit rest inductionHypothesis =>
      have isDigit := number digit List.mem_cons_self
      have other : ∀ code : Code, code.isDigit = false → digit ≠ code := by
        rintro code noDigit rfl
        exact Bool.false_ne_true (noDigit.symm.trans isDigit)
      have token : tokenAt? afterName (digit :: rest) = none := by
        refine tokenAt?_plain (Code.isLetter_of_isDigit isDigit) ?_ _ _
        simp only [List.mem_cons, List.not_mem_nil, or_false, not_or]
        exact ⟨other _ rfl, other _ rfl, other _ rfl⟩
      simp only [codes, if_neg (other Code.space rfl), if_neg (other Code.quote rfl), token]
      simp [inductionHypothesis fun code member => number code (.tail _ member)]

/-- A written integer is crunched to itself. -/
theorem bytes_crunch_format (value : Int) :
    (crunch (Decimal.format value)).bytes = Decimal.format value ++ [Code.newline] := by
  have number : ∀ code ∈ Decimal.digits value.natAbs, code.isDigit = true :=
    fun _ => Decimal.digit_of_mem_digits
  rw [Decimal.format]
  split
  next negative =>
    have opens : Opens (Code.minus :: Decimal.digits value.natAbs) := rfl
    have token : ∀ rest, tokenAt? false (Code.minus :: rest) = none :=
      tokenAt?_plain rfl (by decide) false
    have minus : codes (Code.minus :: Decimal.digits value.natAbs) 0 false (.statement true) =
        Code.minus :: codes (Decimal.digits value.natAbs) 0 false (.statement false) := by
      simp only [codes, token]
      rfl
    rw [crunch, Crunched.bytes, map_fst_line opens, minus, codes_digits number]
  next positive =>
    have crunched := map_fst_line_append number (show Opens [] from rfl) 0
    rw [List.append_nil] at crunched
    rw [crunch, Crunched.bytes, crunched]
    exact congrArg (· ++ [Code.newline]) (List.append_nil _)

end Crunch

namespace Expression

variable {H : Type} [Console H] {environment : Environment} {nested : Attempt (Desk H) Value}
  {desk : Desk H} {digits : List Code}

omit [Console H] in
theorem scanning_readNumber (size : WordSize) :
    (Desk.scanning (Scanner.readNumber size) : Attempt (Desk H) Int) desk =
      ((Scanner.readNumber size desk.scanner).1,
        { desk with scanner := (Scanner.readNumber size desk.scanner).2 }) := rfl

/-- An operand of digits is read as a text of these digits is read. -/
theorem operand_digits (mode : Mode) {code : Code} (opens : code.isDigit = true)
    (ahead : desk.scanner.look.rest.takeWhile Code.isDigit = digits) (some : digits ≠ []) :
    (operand environment mode nested code desk).1 =
        (Decimal.parse? environment.config.word digits).elim (.error .arithmeticOverflow)
          (.ok ∘ .number) ∧
      ((Decimal.parse? environment.config.word digits).isSome = true →
        (operand environment mode nested code desk).2 =
          { desk with scanner := desk.scanner.look.pass digits.length }) := by
  have number : ∀ code ∈ digits, code.isDigit = true := by
    rw [← ahead]
    exact fun code member => List.all_eq_true.mp List.all_takeWhile code member
  rw [operand, if_pos opens, Attempt.bind_apply, scanning_readNumber, Scanner.readNumber_fst ahead,
    Decimal.checked_valueOf some number]
  cases read : Decimal.parse? environment.config.word digits with
  | none => exact ⟨rfl, fun failed => nomatch failed⟩
  | some value =>
      have fits : environment.config.word.Fits (Decimal.valueOf digits) := by
        rw [Decimal.parse?_digits some number, Option.ite_none_right_eq_some] at read
        exact read.1
      rw [Scanner.readNumber_snd ahead fits]
      exact ⟨rfl, fun _ => rfl⟩

/-! ## Expressions that are a number -/

omit [Console H] in
/-- At the end of the line there is no operator. -/
theorem readOperator_end (ends : desk.scanner.line = []) :
    readOperator desk = (.ok .absent, { desk with scanner := desk.scanner.look }) := by
  have newline : desk.scanner.look.current = Code.newline := by
    rw [Scanner.current_eq_headD, Scanner.line_look, ends]
    rfl
  rw [readOperator, Attempt.bind_apply, Desk.look_apply]
  dsimp only
  rw [newline]
  rfl

theorem solid_of_digit {code : Code} (digit : code.isDigit = true) : code ≠ Code.space := by
  rintro rfl
  cases digit

/-- No digit is a sign. -/
theorem noSign_of_digit {code : Code} (digit : code.isDigit = true) :
    Pending.ofCode? code = none := by
  rw [Pending.ofCode?, if_neg, if_neg]
  · rintro rfl
    cases digit
  · rintro rfl
    cases digit

/-- The digits that end a line are an operand, with nothing left behind it. -/
theorem operand_digits_end {first : Code} {others : List Code}
    (line : desk.scanner.line = first :: others)
    (number : ∀ code ∈ first :: others, code.isDigit = true) :
    (operand environment .execute nested first desk).1 =
        (environment.config.word.checked (Decimal.valueOf (first :: others))).map .number ∧
      (environment.config.word.Fits (Decimal.valueOf (first :: others)) →
        (operand environment .execute nested first desk).2.scanner.line = [] ∧
        (operand environment .execute nested first desk).2.calculator = desk.calculator) := by
  have digit : first.isDigit = true := number first List.mem_cons_self
  have current : desk.scanner.current = first := by
    rw [Scanner.current_eq_headD, line]
    rfl
  have along : desk.scanner.look.line = first :: others := by
    rw [Scanner.look_line_of_current current (solid_of_digit digit), line]
  have ahead : desk.scanner.look.rest.takeWhile Code.isDigit = first :: others := by
    rw [← Scanner.takeWhile_line (show Code.isDigit Code.newline = false from rfl)]
    change desk.scanner.look.line.takeWhile Code.isDigit = _
    rw [along, List.takeWhile_eq_self_iff.mpr number]
  have behind : (desk.scanner.look.pass (first :: others).length).line = [] := by
    rw [Scanner.line_pass (by rw [along]), along, List.drop_length]
  have some : first :: others ≠ [] := List.cons_ne_nil _ _
  obtain ⟨reads, passes⟩ :=
    @operand_digits H _ environment nested desk _ .execute first digit ahead some
  rw [Decimal.parse?_digits some number] at reads passes
  by_cases fits : environment.config.word.Fits (Decimal.valueOf (first :: others))
  · rw [if_pos fits] at reads passes
    rw [WordSize.checked, if_pos fits, passes rfl]
    exact ⟨reads, fun _ => ⟨behind, rfl⟩⟩
  · rw [if_neg fits] at reads
    rw [WordSize.checked, if_neg fits]
    exact ⟨reads, fun inside => absurd inside fits⟩

/-- The digits that end a line are the last operand of an expression. -/
theorem operations_digits {turns : Nat} {below : List Pending} {result : Value}
    (line : desk.scanner.line = digits) (some : digits ≠ [])
    (number : ∀ code ∈ digits, code.isDigit = true)
    (folds : foldAll environment .execute .absent desk.calculator.items
      (.number (Decimal.valueOf digits)) = .ok (.ended result below)) :
    (operations environment .execute nested (turns + 1) desk).1 =
      (environment.config.word.checked (Decimal.valueOf digits)).map fun _ => result := by
  obtain ⟨first, others, rfl⟩ := List.exists_cons_of_ne_nil some
  have digit : first.isDigit = true := number first List.mem_cons_self
  have solid := solid_of_digit digit
  have current : desk.scanner.current = first := by
    rw [Scanner.current_eq_headD, line]
    rfl
  let facing : Desk H := { desk with scanner := desk.scanner.look }
  have looked : desk.scanner.look.current = first := by
    rw [Scanner.look_current (by rw [current]; exact solid), current]
  have along : facing.scanner.line = first :: others :=
    (Scanner.look_line_of_current current solid).trans line
  obtain ⟨reads, passes⟩ :=
    @operand_digits_end H _ environment nested facing first others along number
  rw [operations, Attempt.bind_apply, Desk.look_apply]
  dsimp only
  rw [looked, noSign_of_digit digit]
  change ((operand environment .execute nested first >>= _) facing).1 = _
  rw [Attempt.bind_apply]
  generalize operand environment .execute nested first facing = run at reads passes ⊢
  rcases run with ⟨outcome, reached⟩
  obtain rfl : outcome = _ := reads
  by_cases fits : environment.config.word.Fits (Decimal.valueOf (first :: others))
  · obtain ⟨behind, calculator⟩ := passes fits
    rw [WordSize.checked, if_pos fits]
    dsimp only [Except.map]
    rw [Attempt.bind_apply, readOperator_end behind]
    simp only [Attempt.bind_apply, Attempt.get_apply]
    have pending : reached.calculator = desk.calculator := calculator
    rw [pending, folds]
    rfl
  · rw [WordSize.checked, if_neg fits]
    rfl

omit [Console H] in
/-- A push needs room, and changes the stack alone. -/
theorem push_full_or_free (pending : Pending) (desk : Desk H) :
    Desk.push pending desk =
      if desk.calculator.capacity ≤ desk.calculator.length then (.error .outOfMemory, desk)
      else
        (.ok (), { desk with
          calculator := { desk.calculator with items := pending :: desk.calculator.items } }) := by
  rw [Desk.push_apply, BoundedStack.push, BoundedStack.isFull]
  by_cases full : desk.calculator.capacity ≤ desk.calculator.length
  · rw [if_pos (decide_eq_true full), if_pos full]
  · rw [if_neg (by simpa using full), if_neg full]

omit [Console H] in
theorem line_behind_minus (line : desk.scanner.line = Code.minus :: digits) (some : digits ≠ [])
    (number : ∀ code ∈ digits, code.isDigit = true) :
    desk.scanner.look.advance.line = digits := by
  have current : desk.scanner.current = Code.minus := by
    rw [Scanner.current_eq_headD, line]
    rfl
  obtain ⟨first, others, rfl⟩ := List.exists_cons_of_ne_nil some
  have solid : (first == Code.space) = false := by
    refine beq_eq_false_iff_ne.mpr ?_
    rintro rfl
    cases number Code.space List.mem_cons_self
  rw [Scanner.line_advance, Scanner.look_line_of_current current (by decide), line,
    List.drop_one, List.tail_cons, List.dropWhile_cons_of_neg (by simp [solid])]

/-- A minus in front of the digits that end a line is left pending till they are read. -/
theorem operations_minus_digits {turns : Nat} {below : List Pending} {result : Value}
    (line : desk.scanner.line = Code.minus :: digits) (some : digits ≠ [])
    (number : ∀ code ∈ digits, code.isDigit = true)
    (folds : foldAll environment .execute .absent
      (⟨.number 0, .subtract, 9⟩ :: desk.calculator.items)
      (.number (Decimal.valueOf digits)) = .ok (.ended result below)) :
    (operations environment .execute nested (turns + 2) desk).1 =
      if desk.calculator.capacity ≤ desk.calculator.length then .error .outOfMemory
      else (environment.config.word.checked (Decimal.valueOf digits)).map fun _ => result := by
  have current : desk.scanner.current = Code.minus := by
    rw [Scanner.current_eq_headD, line]
    rfl
  have solid : desk.scanner.current ≠ Code.space := by
    rw [current]
    decide
  have behind := line_behind_minus line some number
  let passed : Desk H := { desk with scanner := desk.scanner.look.advance }
  have pends : operations environment .execute nested (turns + 2) desk =
      (Desk.push ⟨.number 0, .subtract, 9⟩ >>= fun _ =>
        operations environment .execute nested (turns + 1)) passed := by
    rw [operations, Attempt.bind_apply, Desk.look_apply]
    dsimp only
    rw [Scanner.look_current solid, current]
    rfl
  rw [pends, Attempt.bind_apply, push_full_or_free]
  by_cases full : desk.calculator.capacity ≤ desk.calculator.length
  · rw [if_pos full, if_pos (show passed.calculator.capacity ≤ passed.calculator.length from full)]
  · rw [if_neg full, if_neg (show ¬passed.calculator.capacity ≤ passed.calculator.length from full)]
    exact operations_digits behind some number folds

/-- The number behind a minus that is pending on a sentinel is negated. -/
theorem foldAll_minus {magnitude : Nat} {value : Int} {below : List Pending}
    (fits : environment.config.word.Fits value) (negated : value = -magnitude) :
    foldAll environment .execute .absent (⟨.number 0, .subtract, 9⟩ :: .sentinel :: below)
        (.number magnitude) = .ok (.ended (.number value) below) := by
  have less : (0 : Int) - magnitude = value := by omega
  have folded : fold environment .execute ⟨.number 0, .subtract, 9⟩ (.number magnitude) =
      .ok (.number value) := by
    simp only [fold, Operator.apply, less, WordSize.checked, if_pos fits]
    rfl
  rw [foldAll]
  simp only [folded]
  rfl

/-- Every magnitude of a word fits a word, but for that of the smallest. -/
theorem fits_natAbs_iff {size : WordSize} {value : Int} (fits : size.Fits value) :
    size.Fits value.natAbs ↔ value ≠ size.minimum := by
  unfold WordSize.Fits at *
  cases size <;> simp only [WordSize.minimum, WordSize.maximum] at * <;> omega

/-- An evaluation needs a level and room for its sentinel before it reads anything. -/
theorem evaluate_fst (desk : Desk H) :
    (evaluate environment .execute desk).1 =
      if environment.config.maxNesting = 0 ∨ desk.calculator.capacity ≤ desk.calculator.length then
        .error .outOfMemory
      else
        (operations environment .execute
          (evaluateWithin environment .execute (environment.config.maxNesting - 1))
          (desk.scanner.rest.length + 1)
          { desk with calculator :=
              { desk.calculator with items := .sentinel :: desk.calculator.items } }).1 := by
  rw [evaluate]
  cases environment.config.maxNesting with
  | zero => rw [if_pos (.inl rfl)]; rfl
  | succ levels =>
      have restored : ∀ step : Attempt (Desk H) Value,
          (Desk.restoring step desk).1 = (step desk).1 := by
        intro step
        unfold Desk.restoring
        rcases step desk with ⟨fault | value, reached⟩ <;> rfl
      rw [evaluateWithin, restored, Attempt.bind_apply, push_full_or_free]
      by_cases full : desk.calculator.capacity ≤ desk.calculator.length
      · rw [if_pos full, if_pos (.inr full)]
      · rw [if_neg full, if_neg (by omega)]
        rfl

/--
What is written of a word is evaluated to that word, where there is a level to open and room
for what is pending: the sentinel, and a minus if there is one. The smallest word overflows.
-/
theorem evaluate_format {value : Int} (fits : environment.config.word.Fits value)
    (line : desk.scanner.line = Decimal.format value) :
    (evaluate environment .execute desk).1 =
      if environment.config.maxNesting = 0 ∨
          desk.calculator.capacity < desk.calculator.length + (if value < 0 then 2 else 1) then
        .error .outOfMemory
      else if value = environment.config.word.minimum then .error .arithmeticOverflow
      else .ok (.number value) := by
  have some := Decimal.digits_ne_nil value.natAbs
  have number : ∀ code ∈ Decimal.digits value.natAbs, code.isDigit = true :=
    fun _ => Decimal.digit_of_mem_digits
  have literal : (environment.config.word.checked value.natAbs).map (fun _ => Value.number value) =
      if value = environment.config.word.minimum then .error .arithmeticOverflow
      else .ok (.number value) := by
    have inside := fits_natAbs_iff fits
    rw [WordSize.checked]
    split <;> split <;> first | rfl | simp_all
  rw [evaluate_fst]
  by_cases negative : value < 0
  · rw [Decimal.format, if_pos negative] at line
    have folds : foldAll environment .execute .absent
        (⟨.number 0, .subtract, 9⟩ :: .sentinel :: desk.calculator.items)
        (.number (Decimal.valueOf (Decimal.digits value.natAbs))) =
          .ok (.ended (.number value) desk.calculator.items) := by
      rw [Decimal.valueOf_digits]
      exact foldAll_minus fits (by omega)
    obtain ⟨turns, enough⟩ : ∃ turns, desk.scanner.rest.length = turns + 1 := by
      refine Nat.exists_eq_succ_of_ne_zero fun none => ?_
      rw [Scanner.line, List.length_eq_zero_iff.mp none] at line
      cases line
    rw [if_pos negative, enough]
    by_cases closed : environment.config.maxNesting = 0 ∨
        desk.calculator.capacity ≤ desk.calculator.length
    · rw [if_pos closed, if_pos (closed.imp_right fun full => by omega)]
    · rw [if_neg closed, operations_minus_digits (by exact line) some number (by exact folds),
        Decimal.valueOf_digits, literal]
      refine ite_congr (propext ⟨fun full => .inr (Nat.lt_succ_of_le full), ?_⟩)
        (fun _ => rfl) fun _ => rfl
      rintro (none | full)
      · exact absurd (.inl none) closed
      · exact Nat.le_of_lt_succ full
  · rw [Decimal.format, if_neg negative] at line
    have same : (value.natAbs : Int) = value := by omega
    have folds : foldAll environment .execute .absent (.sentinel :: desk.calculator.items)
        (.number (Decimal.valueOf (Decimal.digits value.natAbs))) =
          .ok (.ended (.number value) desk.calculator.items) := by
      rw [Decimal.valueOf_digits, same]
      rfl
    rw [if_neg negative, operations_digits (by exact line) some number (by exact folds),
      Decimal.valueOf_digits, literal]
    simp only [Nat.lt_succ_iff]

/--
Numbers are read as they are written.

A text is read as a number exactly if it spells one that a word holds, and what is written of
a word is such a text. Where an expression meets digits it reads all that stand together, and
makes of them what is read of a text of these digits, or overflows if that is nothing. So the
text that is written of a word, typed as an expression, has that word for its value, but for
the smallest word, which overflows, and for want of a level or of room on the stack.
-/
theorem literals_read_back (environment : Environment) :
    let size := environment.config.word
    (∀ codes value, Decimal.parse? size codes = some value ↔
      Decimal.Spells codes value ∧ size.Fits value) ∧
    (∀ value, size.Fits value → Decimal.parse? size (Decimal.format value) = some value) ∧
    (∀ (mode : Mode) (nested : Attempt (Desk H) Value) (desk : Desk H),
      desk.scanner.look.current.isDigit = true →
      let digits := desk.scanner.look.rest.takeWhile Code.isDigit
      let read := operand environment mode nested desk.scanner.look.current desk
      read.1 = (Decimal.parse? size digits).elim (.error .arithmeticOverflow) (.ok ∘ .number) ∧
      ((Decimal.parse? size digits).isSome = true →
        read.2 = { desk with scanner := desk.scanner.look.pass digits.length })) ∧
    ∀ value, size.Fits value →
      (crunch (Decimal.format value)).bytes = Decimal.format value ++ [Code.newline] ∧
      ∀ desk : Desk H, desk.scanner.line = Decimal.format value →
        (evaluate environment .execute desk).1 =
          if environment.config.maxNesting = 0 ∨
              desk.calculator.capacity < desk.calculator.length + (if value < 0 then 2 else 1) then
            .error .outOfMemory
          else if value = size.minimum then .error .arithmeticOverflow
          else .ok (.number value) := by
  refine ⟨fun _ _ => Decimal.parse?_eq_some_iff, fun _ => Decimal.parse?_format, ?_, ?_⟩
  · intro mode nested desk opens
    refine operand_digits mode opens rfl fun none => ?_
    rw [Scanner.current] at opens
    cases ahead : desk.scanner.look.rest with
    | nil =>
        rw [ahead] at opens
        cases opens
    | cons code rest =>
        rw [ahead, List.headD_cons] at opens
        simp [ahead, opens] at none
  · intro value fits
    exact ⟨Crunch.bytes_crunch_format value, fun desk line => evaluate_format fits line⟩

/-- A desk at a text, as it is typed. -/
def deskAt (text : List Code) : Desk NoConsole :=
  ⟨.ofBytes (crunch text).bytes 0, .empty 2, ⟨⟩⟩

/-- The smallest word is read back as a text and not as an expression. -/
theorem literals_read_back_smallest :
    let environment := Environment.blank { word := .short }
    Decimal.parse? .short (Decimal.format (-32768)) = some (-32768) ∧
      (evaluate environment .execute (deskAt (Decimal.format (-32768)))).1.toOption = none ∧
      (evaluate environment .execute (deskAt (Decimal.format (-32767)))).1.toOption =
        some (.number (-32767)) := by
  obtain ⟨-, back, -, written⟩ :=
    literals_read_back (H := NoConsole) (Environment.blank { word := .short })
  have smallest : WordSize.short.Fits (-32768) := by decide
  have next : WordSize.short.Fits (-32767) := by decide
  refine ⟨back _ smallest, ?_, ?_⟩
  · rw [(written _ smallest).2 _ (by decide)]
    rfl
  · rw [(written _ next).2 _ (by decide)]
    rfl

end Expression
end HomeBasic
