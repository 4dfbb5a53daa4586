import HomeBasic.Proofs.Line.Checking

/-!
# The bytes of a crunched statement

What a text crunches to, without the columns: `Crunch.codes`. What a code of the text
belongs to is seen from the bytes that came of the text before it (`Reading.past`), so the
bytes of a statement tell their readings as the text did (`suited_codes`).

Main statements: the bytes of a crunched line are the digits it opens with and the codes of
its statement (`exists_crunch_eq`, `map_fst_line_append`), spaces behind a text add nothing
but spaces to its bytes (`codes_append_spaces`), and only a text that ends in a space has
bytes that do (`getLast?_of_codes`).
-/

namespace HomeBasic

/-! ## Bytes of tokens -/

namespace Token

/-- No token is a display code. -/
theorem ofCode?_shown {code : Code} (shown : code < 0x40) : ofCode? code = none := by
  cases found : ofCode? code with
  | none => rfl
  | some token =>
      obtain rfl := ofCode?_eq_some_iff.mp found
      cases token with
      | word word => cases word <;> exact absurd shown (by decide)
      | keyword keyword => cases keyword <;> exact absurd shown (by decide)

theorem code_ne_shown (token : Token) {code : Code} (shown : code < 0x40) :
    token.code ≠ code := by
  rintro rfl
  have absent := ofCode?_shown shown
  rw [ofCode?_code] at absent
  cases absent

theorem isDigit_code (token : Token) : token.code.isDigit = false := by
  cases digit : token.code.isDigit with
  | false => rfl
  | true =>
      have absent := ofCode?_digit digit
      rw [ofCode?_code] at absent
      cases absent

theorem isNameCode_code (token : Token) : token.code.isNameCode = false := by
  cases token with
  | word word => cases word <;> rfl
  | keyword keyword => cases keyword <;> rfl

end Token

namespace Crunch

/-- The bytes of a crunched statement, without its end. -/
def codes : List Code → (skip : Nat) → (afterName : Bool) → Reading → List Code
  | [], _, _, _ => []
  | code :: rest, skip + 1, _, reading => codes rest skip code.isNameCode reading
  | code :: rest, 0, afterName, reading =>
      let onward := fun skip reading => codes rest skip code.isNameCode reading
      match reading with
      | .remark => code :: onward 0 .remark
      | .remarkGap =>
          if code = Code.space then onward 0 .remarkGap else code :: onward 0 .remark
      | .string => code :: onward 0 (if code = Code.quote then .statement false else .string)
      | .statement atStart =>
          if code = Code.space then onward 0 (.statement atStart)
          else if code = Code.quote then code :: onward 0 .string
          else if atStart ∧ code = Code.question then
            StatementWord.print.code :: onward 0 (.statement false)
          else
            match tokenAt? afterName (code :: rest) with
            | some (token, length) => token.code :: onward (length - 1) (.after token)
            | none => code :: onward 0 (.statement false)

theorem map_fst_body (text : List Code) (column skip : Nat) (afterName : Bool)
    (reading : Reading) :
    (body text column skip afterName reading).map Prod.fst =
      codes text skip afterName reading ++ [Code.newline] := by
  induction text generalizing column skip afterName reading with
  | nil => cases skip <;> rfl
  | cons code rest inductionHypothesis =>
      cases skip with
      | succ skip => exact inductionHypothesis _ _ _ _
      | zero =>
          cases reading with
          | remark | string =>
              simp only [body, codes, List.map_cons, inductionHypothesis, List.cons_append]
          | remarkGap =>
              simp only [body, codes]
              split <;> simp only [List.map_cons, inductionHypothesis, List.cons_append]
          | statement atStart =>
              simp only [body, codes]
              cases tokenAt? afterName (code :: rest) <;>
                split_ifs <;> simp only [List.map_cons, inductionHypothesis, List.cons_append]

/-! ## Line numbers -/

/-- A text that is not part of a line number, the spaces in front of it aside. -/
def Opens (text : List Code) : Prop :=
  ((text.dropWhile (· == Code.space)).headD Code.newline).isDigit = false

theorem Opens.of_append {text more : List Code} (opens : Opens (text ++ more)) : Opens text := by
  induction text with
  | nil => rfl
  | cons code rest inductionHypothesis =>
      by_cases blank : code = Code.space
      · subst blank
        exact inductionHypothesis opens
      · simpa [Opens, blank] using opens

theorem map_fst_line {text : List Code} (opens : Opens text) (column : Nat) :
    (line text column).map Prod.fst = codes text 0 false (.statement true) ++ [Code.newline] := by
  induction text generalizing column with
  | nil => rfl
  | cons code rest inductionHypothesis =>
      by_cases blank : code = Code.space
      · subst blank
        simp only [line, if_true]
        exact inductionHypothesis opens _
      · have noDigit : code.isDigit = false := by simpa [Opens, blank] using opens
        simp only [line, if_neg blank, noDigit, Bool.false_eq_true, if_false]
        exact map_fst_body _ _ _ _ _

theorem map_fst_line_append {digits : List Code} (number : ∀ code ∈ digits, code.isDigit = true)
    {text : List Code} (opens : Opens text) (column : Nat) :
    (line (digits ++ text) column).map Prod.fst =
      digits ++ codes text 0 false (.statement true) ++ [Code.newline] := by
  induction digits generalizing column with
  | nil => exact map_fst_line opens column
  | cons digit digits inductionHypothesis =>
      have isDigit := number digit (by simp)
      have solid : digit ≠ Code.space := by
        rintro rfl
        cases isDigit
      simp only [List.cons_append, line, if_neg solid, isDigit, if_true, List.map_cons]
      rw [inductionHypothesis fun code member => number code (List.mem_cons_of_mem _ member)]

/-- What a statement opens with is not a digit, if its text does not open with one. -/
theorem isDigit_head_codes {text : List Code} (opens : Opens text) (afterName : Bool)
    (atStart : Bool) :
    ((codes text 0 afterName (.statement atStart)).headD Code.newline).isDigit = false := by
  induction text generalizing afterName with
  | nil => rfl
  | cons code rest inductionHypothesis =>
      by_cases blank : code = Code.space
      · subst blank
        simp only [codes, if_true]
        exact inductionHypothesis opens _
      · have noDigit : code.isDigit = false := by simpa [Opens, blank] using opens
        simp only [codes, if_neg blank]
        cases tokenAt? afterName (code :: rest) with
        | none => split_ifs <;> first | exact noDigit | rfl
        | some found => split_ifs <;> first | exact noDigit | exact found.1.isDigit_code | rfl

/-- Every text is digits and spaces and then a statement, and so are its bytes. -/
theorem exists_crunch_eq (text : List Code) :
    ∃ digits statement, (∀ code ∈ digits, code.isDigit = true) ∧ Opens statement ∧
      (∀ code ∈ statement, code ∈ text) ∧
      (crunch text).bytes =
        digits ++ codes statement 0 false (.statement true) ++ [Code.newline] := by
  suffices crunched : ∀ column, ∃ digits statement, (∀ code ∈ digits, code.isDigit = true) ∧
      Opens statement ∧ (∀ code ∈ statement, code ∈ text) ∧
      (line text column).map Prod.fst =
        digits ++ codes statement 0 false (.statement true) ++ [Code.newline] from crunched 0
  induction text with
  | nil => exact fun column => ⟨[], [], by simp, rfl, by simp, rfl⟩
  | cons code rest inductionHypothesis =>
      intro column
      obtain ⟨digits, statement, number, opens, part, bytes⟩ := inductionHypothesis (column + 1)
      by_cases blank : code = Code.space
      · subst blank
        refine ⟨digits, statement, number, opens, fun code member => .tail _ (part code member), ?_⟩
        simpa only [line, if_true] using bytes
      · cases digit : code.isDigit with
        | true =>
            refine ⟨code :: digits, statement, by simpa [digit] using number, opens,
              fun code member => .tail _ (part code member), ?_⟩
            simp only [line, if_neg blank, digit, if_true, List.map_cons, bytes, List.cons_append]
        | false =>
            have opens : Opens (code :: rest) := by simpa [Opens, blank] using digit
            exact ⟨[], code :: rest, by simp, opens, fun _ member => member, map_fst_line opens _⟩

/-! ## Readings along the bytes -/

/-- What the code belongs to that follows a byte. -/
def Reading.past (reading : Reading) (byte : Code) : Reading :=
  match reading with
  | .remark | .remarkGap => .remark
  | .string => if byte = Code.quote then .statement false else .string
  | .statement _ =>
      if byte = Code.quote then .string
      else
        match Token.ofCode? byte with
        | some token => .after token
        | none => .statement false

/-- A byte may stand where it is read so. -/
def Reading.Suits : Reading → Code → Prop
  | .remark, byte | .string, byte => byte < 0x40
  | .remarkGap, byte => byte < 0x40 ∧ byte ≠ Code.space
  | .statement atStart, byte =>
      byte ≠ Code.space ∧ (atStart = true → byte ≠ Code.question) ∧
        (byte < 0x40 ∨ ∃ token : Token, token.code = byte)

/-- Every byte may stand where it stands. -/
def Suited : Reading → List Code → Prop
  | _, [] => True
  | reading, byte :: rest => reading.Suits byte ∧ Suited (reading.past byte) rest

/-- A token only stands in a statement. -/
theorem Reading.Suits.statement_of_token {reading : Reading} {token : Token}
    (suits : reading.Suits token.code) : ∃ atStart, reading = .statement atStart := by
  cases reading with
  | statement atStart => exact ⟨atStart, rfl⟩
  | remark | string => exact absurd rfl (token.code_ne_shown suits)
  | remarkGap => exact absurd rfl (token.code_ne_shown suits.1)

/-- A byte that stands for itself is a display code. -/
theorem Reading.Suits.shown {reading : Reading} {byte : Code} (suits : reading.Suits byte)
    (raw : Token.ofCode? byte = none) : byte < 0x40 := by
  cases reading with
  | remark | string => exact suits
  | remarkGap => exact suits.1
  | statement atStart =>
      obtain shown | ⟨token, rfl⟩ := suits.2.2
      · exact shown
      · cases token.ofCode?_code.symm.trans raw

theorem Reading.past_code (atStart : Bool) (token : Token) :
    (Reading.statement atStart).past token.code = .after token := by
  have noQuote := token.code_ne_shown (show Code.quote < 0x40 by decide)
  simp only [past, if_neg noQuote, Token.ofCode?_code]

theorem suited_codes {text : List Code} (shown : ∀ code ∈ text, code < 0x40) (skip : Nat)
    (afterName : Bool) (reading : Reading) :
    Suited reading (codes text skip afterName reading) := by
  induction text generalizing skip afterName reading with
  | nil => cases skip <;> exact trivial
  | cons code rest inductionHypothesis =>
      have plain : code < 0x40 := shown code (by simp)
      have onward := inductionHypothesis fun code member => shown code (.tail _ member)
      cases skip with
      | succ skip => exact onward _ _ _
      | zero =>
          cases reading with
          | remark | string => exact ⟨plain, onward _ _ _⟩
          | remarkGap =>
              simp only [codes]
              split
              next => exact onward _ _ _
              next solid => exact ⟨⟨plain, solid⟩, onward _ _ _⟩
          | statement atStart =>
              simp only [codes]
              split_ifs with blank quoted question
              · exact onward _ _ _
              · subst quoted
                exact ⟨⟨by decide, fun _ => by decide, .inl plain⟩, onward _ _ _⟩
              · exact ⟨⟨by decide, fun _ => by decide, .inr ⟨.word .print, rfl⟩⟩, onward _ _ _⟩
              · cases tokenAt? afterName (code :: rest) with
                | some found =>
                    refine ⟨⟨found.1.code_ne_space, fun _ => ?_, .inr ⟨found.1, rfl⟩⟩, ?_⟩
                    · exact found.1.code_ne_shown (by decide)
                    · rw [Reading.past_code]
                      exact onward _ _ _
                | none =>
                    refine ⟨⟨blank, fun start same => question ⟨start, same⟩, .inl plain⟩, ?_⟩
                    simp only [Reading.past, if_neg quoted, Token.ofCode?_shown plain]
                    exact onward _ _ _

/-! ## Spaces at the end -/

theorem codes_remark (text : List Code) (afterName : Bool) :
    codes text 0 afterName .remark = text := by
  induction text generalizing afterName with
  | nil => rfl
  | cons code rest inductionHypothesis => simp only [codes, inductionHypothesis]

theorem codes_eq_nil_of_string {text : List Code} {afterName : Bool}
    (empty : codes text 0 afterName .string = []) : text = [] := by
  cases text with
  | nil => rfl
  | cons code rest => cases empty

/-- Symbols begin with one of three codes. -/
theorem symbolAt?_plain {code : Code} (plain : code ∉ [Code.star, Code.less, Code.greater])
    (rest : List Code) : symbolAt? (code :: rest) = none := by
  simp only [List.mem_cons, List.not_mem_nil, or_false, not_or] at plain
  cases rest with
  | nil => rfl
  | cons second rest => simp only [symbolAt?, plain, false_and, if_false]

theorem symbolAt?_append_spaces (text : List Code) (count : Nat) :
    symbolAt? (text ++ List.replicate count Code.space) = symbolAt? text := by
  match text, count with
  | [], 0 | [], 1 | [code], 0 => rfl
  | [], count + 2 => rfl
  | [code], count + 1 =>
      simp [List.replicate_succ, symbolAt?, Code.space, Code.star, Code.equals, Code.greater]
  | first :: second :: rest, count => rfl

theorem wordAt?_append_spaces (text : List Code) (count : Nat) :
    wordAt? (text ++ List.replicate count Code.space) = wordAt? text := by
  have blank : Code.space.isLetter = false := rfl
  have letters : (text ++ List.replicate count Code.space).takeWhile Code.isLetter =
      text.takeWhile Code.isLetter := by
    rw [List.takeWhile_append, List.takeWhile_replicate, blank]
    split
    next all => simpa using ((List.takeWhile_prefix _).eq_of_length all).symm
    next => rfl
  have inside : (text.takeWhile Code.isLetter).length ≤ text.length :=
    (List.takeWhile_sublist _).length_le
  have dot : ((List.replicate count Code.space).head? == some Code.dot) = false := by
    cases count <;> rfl
  rw [wordAt?, wordAt?, letters, List.drop_append_of_le_length inside]
  cases text.drop (text.takeWhile Code.isLetter).length with
  | nil => rw [List.nil_append, dot]; rfl
  | cons code rest => rfl

theorem tokenAt?_append_spaces (afterName : Bool) (text : List Code) (count : Nat) :
    tokenAt? afterName (text ++ List.replicate count Code.space) = tokenAt? afterName text := by
  rw [tokenAt?, symbolAt?_append_spaces, wordAt?_append_spaces, tokenAt?]

theorem codes_spaces (count skip : Nat) (afterName : Bool) (reading : Reading) :
    ∃ more, codes (List.replicate count Code.space) skip afterName reading =
      List.replicate more Code.space := by
  induction count generalizing skip afterName reading with
  | zero => exact ⟨0, by cases skip <;> rfl⟩
  | succ count inductionHypothesis =>
      rw [List.replicate_succ]
      have onward := inductionHypothesis
      cases skip with
      | succ skip => exact onward _ _ _
      | zero =>
          cases reading with
          | remarkGap | statement => exact onward _ _ _
          | remark | string =>
              obtain ⟨more, spaces⟩ := onward 0 false _
              exact ⟨more + 1, congrArg (Code.space :: ·) spaces⟩

/-- Spaces behind a text add only spaces to its bytes. -/
theorem codes_append_spaces (text : List Code) (count skip : Nat) (afterName : Bool)
    (reading : Reading) :
    ∃ more, codes (text ++ List.replicate count Code.space) skip afterName reading =
      codes text skip afterName reading ++ List.replicate more Code.space := by
  induction text generalizing skip afterName reading with
  | nil =>
      obtain ⟨more, spaces⟩ := codes_spaces count skip afterName reading
      exact ⟨more, by cases skip <;> exact spaces⟩
  | cons code rest inductionHypothesis =>
      have cons : ∀ (byte : Code) {first second : List Code},
          (∃ more, first = second ++ List.replicate more Code.space) →
          ∃ more, byte :: first = byte :: second ++ List.replicate more Code.space := by
        rintro byte first second ⟨more, same⟩
        exact ⟨more, congrArg (byte :: ·) same⟩
      cases skip with
      | succ skip => exact inductionHypothesis _ _ _
      | zero =>
          cases reading with
          | remark | string => exact cons _ (inductionHypothesis _ _ _)
          | remarkGap =>
              simp only [List.cons_append, codes]
              split
              · exact inductionHypothesis _ _ _
              · exact cons _ (inductionHypothesis _ _ _)
          | statement atStart =>
              have token := tokenAt?_append_spaces afterName (code :: rest) count
              rw [List.cons_append] at token
              simp only [List.cons_append, codes, token]
              cases tokenAt? afterName (code :: rest) <;> split_ifs <;>
                first | exact inductionHypothesis _ _ _ | exact cons _ (inductionHypothesis _ _ _)

theorem getLast?_cons_cases {byte : Code} {bytes : List Code}
    (last : (byte :: bytes).getLast? = some Code.space) :
    bytes.getLast? = some Code.space ∨ bytes = [] ∧ byte = Code.space := by
  rw [List.getLast?_cons] at last
  cases ends : bytes.getLast? with
  | none =>
      rw [ends] at last
      exact .inr ⟨List.getLast?_eq_none_iff.mp ends, Option.some.inj last⟩
  | some other =>
      rw [ends] at last
      exact .inl last

/-- The last byte is a space only where the text ends in one. -/
theorem getLast?_of_codes {text : List Code} {skip : Nat} {afterName : Bool} {reading : Reading}
    (last : (codes text skip afterName reading).getLast? = some Code.space) :
    text.getLast? = some Code.space := by
  induction text generalizing skip afterName reading with
  | nil => cases skip <;> cases last
  | cons code rest inductionHypothesis =>
      have onward : ∀ {skip afterName reading},
          (codes rest skip afterName reading).getLast? = some Code.space →
          (code :: rest).getLast? = some Code.space := by
        intro skip afterName reading last
        rw [List.getLast?_cons, inductionHypothesis last]
        rfl
      have solid : ∀ {byte : Code} {skip afterName reading}, byte ≠ Code.space →
          (byte :: codes rest skip afterName reading).getLast? = some Code.space →
          (code :: rest).getLast? = some Code.space := by
        intro byte skip afterName reading solid last
        rcases getLast?_cons_cases last with later | ⟨-, same⟩
        · exact onward later
        · exact absurd same solid
      cases skip with
      | succ skip => exact onward last
      | zero =>
          cases reading with
          | remark => rwa [codes_remark] at last
          | string =>
              simp only [codes] at last
              split at last
              next quoted => exact solid (by rw [quoted]; decide) last
              next =>
                rcases getLast?_cons_cases last with later | ⟨none, same⟩
                · exact onward later
                · rw [codes_eq_nil_of_string none, same]
                  rfl
          | remarkGap =>
              simp only [codes] at last
              split at last
              next => exact onward last
              next kept => exact solid kept last
          | statement atStart =>
              simp only [codes] at last
              split_ifs at last with blank quoted question
              · exact onward last
              · exact solid (by rw [quoted]; decide) last
              · exact solid (by decide) last
              · cases token : tokenAt? afterName (code :: rest) with
                | none =>
                    rw [token] at last
                    exact solid blank last
                | some found =>
                    rw [token] at last
                    exact solid (Token.code_ne_space _) last

end Crunch
end HomeBasic
