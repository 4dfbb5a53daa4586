import HomeBasic.Proofs.Grammar.Taking

/-!
# Numbers, texts and names

What reading a number, a text or a name takes off a compact line. A number takes all digits
that stand together and a name all name codes, and what a name is used as is told by the two
codes behind it (`NameUse.ofAfter`).

Main statements: a number is read exactly if it fits a word (`recognizes_readNumber`), a text
exactly if it is closed (`Ready.readText`, `Ready.exists_of_readText`), and a name exactly if
it is not too long (`Ready.readName`).
-/

namespace HomeBasic

/-! ## Digits -/

namespace Scanner

variable {size : WordSize} {scanner reached : Scanner} {digits : List Code} {value number : Int}

/-- The number that digits go on to from the one in front of them. -/
def continued (value : Int) (digits : List Code) : Int :=
  digits.foldl (fun value digit => 10 * value + digit.digitValue) value

theorem continued_zero (digits : List Code) : continued 0 digits = Decimal.valueOf digits := by
  suffices every : ∀ value : Nat, continued value digits =
      (digits.foldl (fun value digit => 10 * value + digit.digitValue) value : Nat) from every 0
  induction digits with
  | nil => exact fun _ => rfl
  | cons digit digits inductionHypothesis =>
      intro value
      have next : (10 * value + digit.digitValue : Int) =
          (10 * value + digit.digitValue : Nat) := by
        push_cast
        rfl
      rw [continued, List.foldl_cons, next]
      exact inductionHypothesis _

theorem le_continued (positive : 0 ≤ value) (digits : List Code) :
    value ≤ continued value digits := by
  induction digits generalizing value with
  | nil => exact Int.le_refl _
  | cons digit digits inductionHypothesis =>
      have grown : 0 ≤ 10 * value + (digit.digitValue : Int) := by omega
      have further := inductionHypothesis grown
      change value ≤ continued (10 * value + digit.digitValue) digits
      omega

/-- Digits are read exactly if the number that they make fits a word. -/
theorem readDigits_eq_ok_iff (positive : 0 ≤ value) (fits : size.Fits value) :
    readDigits size digits value scanner = (.ok number, reached) ↔
      size.Fits (continued value digits) ∧ number = continued value digits ∧
        reached = scanner.pass digits.length := by
  induction digits generalizing value scanner with
  | nil =>
      constructor
      · rintro ⟨⟩
        exact ⟨fits, rfl, rfl⟩
      · rintro ⟨-, rfl, rfl⟩
        rfl
  | cons digit digits inductionHypothesis =>
      have grown : 0 ≤ 10 * value + (digit.digitValue : Int) := by omega
      simp only [readDigits, Attempt.bind_apply, Attempt.ofExcept_apply, Attempt.modify_apply,
        WordSize.checked, List.length_cons]
      by_cases inside : size.Fits (10 * value + digit.digitValue)
      · rw [if_pos inside, inductionHypothesis grown inside, pass_pass, Nat.add_comm 1]
        rfl
      · rw [if_neg inside]
        refine ⟨fun run => (by cases run), fun read => absurd ⟨?_, ?_⟩ inside⟩
        · exact Int.le_trans fits.1 (by omega)
        · exact Int.le_trans (le_continued grown digits) read.1.2

end Scanner

/-! ## Uses of names -/

/-- What a name is used as, by what follows it. -/
def NameUse.ofAfter : List Code → NameUse
  | [] => .number
  | code :: rest =>
      if code = Code.dollar then
        if rest.headD Code.newline = Code.leftParen then .textFunction else .text
      else if code = Code.leftParen then .array
      else .number

namespace Grammar

/-- A name, however long, stands in front of what does not belong to it. -/
structure Heads (name : Name) (after line : List Code) : Prop where
  line : line = name ++ after
  letter : (name.headD Code.newline).isLetter = true
  codes : ∀ code ∈ name, code.isNameCode = true
  stops : (after.headD Code.newline).isNameCode = false

theorem headD_append_of_isLetter {name : List Code}
    (letter : (name.headD Code.newline).isLetter = true) (after : List Code) :
    (name ++ after).headD Code.newline = name.headD Code.newline := by
  cases name with
  | nil => cases letter
  | cons code name => rfl

/-- What opens with a letter still does with more behind it. -/
theorem isLetter_headD_append {name : List Code}
    (letter : (name.headD Code.newline).isLetter = true) (after : List Code) :
    ((name ++ after).headD Code.newline).isLetter = true := by
  rw [headD_append_of_isLetter letter]
  exact letter

theorem exists_cons_of_isLetter {line : List Code}
    (letter : (line.headD Code.newline).isLetter = true) :
    ∃ code rest, line = code :: rest ∧ code.isLetter = true := by
  cases line with
  | nil => cases letter
  | cons code rest => exact ⟨code, rest, rfl, letter⟩

/-- The codes of a kind that a line opens with end where a code of another kind stands. -/
theorem headD_dropWhile {kind : Code → Bool} (inLine : kind Code.newline = false)
    (line : List Code) : kind ((line.dropWhile kind).headD Code.newline) = false := by
  induction line with
  | nil => exact inLine
  | cons code line inductionHypothesis =>
      cases same : kind code with
      | true => rwa [List.dropWhile_cons_of_pos same]
      | false => rwa [List.dropWhile_cons_of_neg (by simp [same])]

theorem exists_heads {line : List Code} (letter : (line.headD Code.newline).isLetter = true) :
    ∃ name after, Heads name after line := by
  obtain ⟨code, rest, rfl, letter⟩ := exists_cons_of_isLetter letter
  refine ⟨code :: rest.takeWhile Code.isNameCode, rest.dropWhile Code.isNameCode,
    by rw [List.cons_append, List.takeWhile_append_dropWhile], letter, ?_,
    headD_dropWhile (by decide) rest⟩
  intro other member
  rcases List.mem_cons.mp member with rfl | member
  · exact Code.isNameCode_of_isLetter letter
  · exact List.all_eq_true.mp List.all_takeWhile other member

section
variable {H : Type} {calculator : BoundedStack Pending} {desk reached : Desk H}
  {size : WordSize} {name : Name} {after text rest : List Code} {code : Code}

/-! ## Numbers -/

/-- Digits that stand together are read exactly if their number fits a word. -/
theorem Ready.readNumber_eq_ok_iff {digits : List Code} {value : Int}
    (ready : Ready calculator desk) (opens : desk.scanner.line = digits ++ rest)
    (number : ∀ digit ∈ digits, digit.isDigit = true)
    (stops : (rest.headD Code.newline).isDigit = false) :
    Desk.scanning (Scanner.readNumber size) desk = (.ok value, reached) ↔
      size.Fits (Decimal.valueOf digits) ∧ value = Decimal.valueOf digits ∧
        reached = { desk with scanner := desk.scanner.look.pass digits.length } := by
  have ahead : desk.scanner.look.rest.takeWhile Code.isDigit = digits := by
    rw [← Scanner.takeWhile_line (by rfl)]
    change desk.scanner.look.line.takeWhile Code.isDigit = digits
    rw [ready.look_line, opens, List.takeWhile_append_of_pos number]
    cases rest with
    | nil => simp
    | cons code rest =>
        rw [List.takeWhile_cons_of_neg (by simpa using stops), List.append_nil]
  have fits : size.Fits 0 := by cases size <;> decide
  have inside := @Scanner.readDigits_eq_ok_iff size desk.scanner.look reached.scanner digits 0
    value (Int.le_refl 0) fits
  rw [Scanner.continued_zero] at inside
  simp only [Desk.scanning, Attempt.within_apply, Scanner.readNumber, Attempt.bind_apply,
    Attempt.modify_apply, Attempt.get_apply, ahead]
  generalize Scanner.readDigits size digits 0 desk.scanner.look = outcome at inside
  constructor
  · intro run
    obtain ⟨ends, rfl⟩ := Prod.mk.inj run
    obtain ⟨fits, same, scanner⟩ := inside.mp (Prod.ext ends rfl)
    refine ⟨fits, same, ?_⟩
    have scanner : outcome.2 = desk.scanner.look.pass digits.length := scanner
    rw [scanner]
  · rintro ⟨fits, rfl, rfl⟩
    rw [inside.mpr ⟨fits, rfl, rfl⟩]

theorem Ready.passNumber {digits : List Code} (ready : Ready calculator desk)
    (opens : desk.scanner.line = digits ++ rest)
    (number : ∀ digit ∈ digits, digit.isDigit = true) :
    Ready calculator { desk with scanner := desk.scanner.look.pass digits.length } ∧
      (desk.scanner.look.pass digits.length).line = rest := by
  have looked := ready.look_line.trans opens
  have line : (desk.scanner.look.pass digits.length).line = rest := by
    rw [Scanner.line_pass (by rw [looked, List.length_append]; omega), looked, List.drop_left]
  have compact := ready.compact
  rw [opens] at compact
  have behind := compact.behind fun digit member =>
    plain_of_isNameCode (Code.isNameCode_of_isDigit (number digit member))
  exact ⟨⟨by rw [line]; exact behind, ready.calculator⟩, line⟩

/-- A number takes all digits there are off the line, and has to fit a word. -/
theorem recognizes_readNumber (size : WordSize) :
    Recognizes calculator Anything
      (Desk.scanning (Scanner.readNumber size) : Attempt (Desk H) Int) (fun _ => ())
      fun line _ rest => ∃ digits, (∀ digit ∈ digits, digit.isDigit = true) ∧
        size.Fits (Decimal.valueOf digits) ∧ line = digits ++ rest ∧
        (rest.headD Code.newline).isDigit = false where
  sound := by
    intro desk reached value ready run
    have number : ∀ digit ∈ desk.scanner.line.takeWhile Code.isDigit, digit.isDigit = true :=
      fun digit member => List.all_eq_true.mp List.all_takeWhile digit member
    have stops := headD_dropWhile (by decide : Code.isDigit Code.newline = false) desk.scanner.line
    have opens : desk.scanner.line = desk.scanner.line.takeWhile Code.isDigit ++
        desk.scanner.line.dropWhile Code.isDigit := List.takeWhile_append_dropWhile.symm
    obtain ⟨fits, -, rfl⟩ := (ready.readNumber_eq_ok_iff opens number stops).mp run
    obtain ⟨behind, line⟩ := ready.passNumber opens number
    refine ⟨behind, _, number, fits, ?_, ?_⟩
    · rw [line]
      exact opens
    · rw [line]
      exact stops
  complete := by
    rintro desk _ rest ready ⟨digits, number, fits, opens, stops⟩ _
    exact ⟨_, _, (ready.readNumber_eq_ok_iff opens number stops).mpr ⟨fits, rfl, rfl⟩, rfl,
      (ready.passNumber opens number).2⟩

/-! ## Texts -/

theorem Ready.readText (ready : Ready calculator desk)
    (opens : desk.scanner.line = Code.quote :: (text ++ Code.quote :: rest))
    (inside : Code.quote ∉ text) :
    ∃ reached, Desk.scanning Scanner.readText desk = (.ok text, reached) ∧
      Ready calculator reached ∧ reached.scanner.line = rest := by
  have plain : ∀ code ∈ text, code ≠ Code.quote := fun code member same => inside (same ▸ member)
  have compact := ready.compact
  rw [opens] at compact
  have behind := compact.inText.behindText inside
  have passed : (desk.scanner.pass (1 + text.length + 1)).line = rest := by
    rw [Scanner.line_pass, opens, Nat.add_comm 1, List.drop_succ_cons, List.drop_append,
      List.drop_of_length_le (by omega), Nat.add_sub_cancel_left, List.nil_append, List.drop_one,
      List.tail_cons]
    rw [opens, List.length_cons, List.length_append, List.length_cons]
    omega
  have before : Ready calculator { desk with scanner := desk.scanner.pass (1 + text.length + 1) } :=
    ⟨by rw [passed]; exact behind, ready.calculator⟩
  refine ⟨{ desk with scanner := (desk.scanner.pass (1 + text.length + 1)).look }, ?_,
    before.look, before.look_line.trans passed⟩
  rw [Desk.scanning, Attempt.within_apply, Scanner.readText_closed opens plain]

theorem Ready.exists_of_readText {value : List Code}
    (opens : desk.scanner.line = Code.quote :: rest)
    (run : Desk.scanning Scanner.readText desk = (.ok value, reached)) :
    ∃ text after, rest = text ++ Code.quote :: after ∧ Code.quote ∉ text := by
  by_cases closed : Code.quote ∈ rest
  · obtain ⟨text, after, rfl, fresh⟩ := List.eq_append_cons_of_mem closed
    exact ⟨text, after, rfl, fresh⟩
  · have plain : ∀ code ∈ rest, code ≠ Code.quote := fun code member same => closed (same ▸ member)
    rw [Desk.scanning, Attempt.within_apply, Scanner.readText_open opens plain] at run
    cases run

/-! ## Names -/

theorem Heads.plain (heads : Heads name after rest) : ∀ code ∈ name, code.Plain :=
  fun code member => plain_of_isNameCode (heads.codes code member)

theorem Heads.more (heads : Heads name after desk.scanner.line) :
    desk.scanner.current ≠ Code.newline := by
  have letter := heads.letter
  rw [Scanner.current_eq_headD, heads.line, headD_append_of_isLetter letter]
  rintro same
  rw [same] at letter
  cases letter

theorem Heads.nameAhead (heads : Heads name after desk.scanner.line) :
    desk.scanner.nameAhead = (NameUse.ofAfter after, name.length) := by
  have more := heads.more
  obtain ⟨opens, letter, codes, stops⟩ := heads
  cases name with
  | nil => cases letter
  | cons first others =>
      have name : (others ++ after).takeWhile Code.isNameCode = others := by
        rw [List.takeWhile_append_of_pos fun code member => codes code (.tail _ member)]
        cases after with
        | nil => simp
        | cons code after =>
            rw [List.takeWhile_cons_of_neg (by simpa using stops), List.append_nil]
      rw [Scanner.nameAhead_eq more, opens]
      simp only [Scanner.nameAhead, List.cons_append, List.tail_cons, name, Nat.add_comm 1,
        List.drop_succ_cons, List.drop_left, List.length_cons, Prod.mk.injEq, and_true]
      -- The use goes by the two codes behind the name, as far as there are any.
      rcases after with _ | ⟨first, _ | ⟨second, after⟩⟩
      · rfl
      · have noBracket : Code.newline ≠ Code.leftParen := by decide
        rw [NameUse.ofAfter, List.headD_nil, if_neg noBracket]
      · rfl

/-- A name is read exactly if it is not too long. -/
theorem Heads.readName (heads : Heads name after desk.scanner.line) :
    Desk.readName desk =
      if maxNameLength < name.length then (.error .syntaxError, desk)
      else (.ok (name, NameUse.ofAfter after), desk) := by
  rw [Desk.readName_apply, Scanner.take_nameAhead heads.more, heads.nameAhead, heads.line,
    List.take_left]

/-- The name is passed over. -/
theorem Ready.skipName (ready : Ready calculator desk)
    (heads : Heads name after desk.scanner.line) :
    Ready calculator { desk with scanner := desk.scanner.skip name.length } ∧
      (desk.scanner.skip name.length).line = after :=
  ready.skip heads.line heads.plain

end
end Grammar
end HomeBasic
