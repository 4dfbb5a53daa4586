import HomeBasic.Proofs.Console.Upheld
import HomeBasic.Proofs.Line.Columns
import HomeBasic.Proofs.Line.Relisting

/-!
# Lines that settle

A listing that is typed again may spell another line: codes that were typed apart stand together
in it and make words. But only once. Around each word that is made so, the next listing has a
space, and behind a code that stays for itself it has what the listing had before, or such a
space, so that no more words are made and none are lost.

Main statement: the line that a listing spells comes back from its own listing, however often
(`listing_settles`).
-/

namespace HomeBasic

open Crunch (Reading Suited codes tokenAt? symbolAt? wordAt?)

/-! ## Spellings -/

/-- No spelling has spaces or quotes in it. -/
theorem Token.solid_spellingCodes (token : Token) :
    ∀ code ∈ token.spellingCodes, code ≠ Code.space ∧ code ≠ Code.quote := by
  have all : token.spellingCodes.all (fun code => code != Code.space && code != Code.quote) =
      true := by
    cases token with
    | word word => cases word <;> rfl
    | keyword keyword => cases keyword <;> rfl
  simpa using all

/-- A token without spaces around it is spelled with two symbols. -/
theorem Token.exists_symbols {token : Token} (unspaced : token.isSpaced = false) :
    ∃ first second, token.spellingCodes = [first, second] := by
  cases token with
  | word => cases unspaced
  | keyword keyword => cases keyword <;> first | exact ⟨_, _, rfl⟩ | cases unspaced

namespace Crunch

theorem Reading.Suits.further {atStart : Bool} {byte : Code}
    (suits : (Reading.statement atStart).Suits byte) : (Reading.statement false).Suits byte :=
  ⟨suits.1, fun start => absurd start Bool.false_ne_true, suits.2.2⟩

theorem Reading.past_raw {byte : Code} (raw : Token.ofCode? byte = none)
    (noQuote : byte ≠ Code.quote) (atStart : Bool) :
    (Reading.statement atStart).past byte = .statement false := by
  simp only [past, if_neg noQuote, raw]

/-- No letter stands behind all the letters that a text opens with. -/
theorem not_isLetter_behind (text : List Code) :
    ((text.drop (text.takeWhile Code.isLetter).length).headD Code.newline).isLetter = false := by
  have behind := @List.drop_left _ (text.takeWhile Code.isLetter) (text.dropWhile Code.isLetter)
  rw [List.takeWhile_append_dropWhile] at behind
  have first := List.head?_dropWhile_not Code.isLetter text
  rw [behind, List.headD_eq_head?_getD]
  cases head : (text.dropWhile Code.isLetter).head? with
  | none => rfl
  | some code =>
      rw [head] at first
      exact first

/-- A word is not read behind a code of a name, and no letter stands behind it. -/
theorem word_of_tokenAt? {afterName : Bool} {text : List Code} {token : Token} {length : Nat}
    (found : tokenAt? afterName text = some (token, length)) (spaced : token.isSpaced = true) :
    afterName = false ∧ ((text.drop length).headD Code.newline).isLetter = false := by
  unfold tokenAt? at found
  cases symbol : symbolAt? text with
  | some keyword =>
      rw [symbol] at found
      cases found
      have unspaced := (spelled_of_symbolAt? symbol).1
      simp [Token.isSpaced, unspaced] at spaced
  | none =>
      rw [symbol] at found
      cases afterName with
      | true => cases found
      | false =>
          refine ⟨rfl, ?_⟩
          simp only [Bool.false_eq_true, if_false, wordAt?] at found
          split at found
          · cases found
          next =>
            obtain ⟨word, -, same⟩ := Option.map_eq_some_iff.mp found
            cases same
            exact not_isLetter_behind text

theorem tokenAt?_eq_none_iff {afterName : Bool} {text : List Code} :
    tokenAt? afterName text = none ↔
      symbolAt? text = none ∧ (afterName = false → wordAt? text = none) := by
  unfold tokenAt?
  cases symbolAt? text <;> cases afterName <;> simp

/-- The codes that belong to a token are passed over. -/
theorem codes_behind_spelling (token : Token) (rest : List Code) (reading : Reading) :
    codes (token.spellingCodes.tail ++ rest) (token.spellingCodes.length - 1)
        (token.spellingCodes.headD Code.newline).isNameCode reading =
      codes rest 0 token.isSpaced reading := by
  cases token with
  | word word => cases word <;> rfl
  | keyword keyword => cases keyword <;> rfl

/-- A word or symbol that a statement goes on with is read, and then what is behind it. -/
theorem codes_of_tokenAt? {afterName : Bool} {code : Code} {text : List Code} {token : Token}
    {length : Nat} (found : tokenAt? afterName (code :: text) = some (token, length))
    (solid : code ≠ Code.space) {atStart : Bool}
    (noQuestion : atStart = true → code ≠ Code.question) :
    ∃ rest, code :: text = token.spellingCodes ++ rest ∧
      codes (code :: text) 0 afterName (.statement atStart) =
        token.code :: codes rest 0 token.isSpaced (.after token) ∧
      (token.isSpaced = true →
        afterName = false ∧ (rest.headD Code.newline).isLetter = false) := by
  have taken := take_of_tokenAt? found
  have size : length = token.spellingCodes.length := by
    rw [← taken, List.length_take, Nat.min_eq_left (length_of_tokenAt? found).2]
  have spelled : code :: text = token.spellingCodes ++ (code :: text).drop length := by
    rw [← taken, List.take_append_drop]
  have noQuote : code ≠ Code.quote := by
    rintro rfl
    rw [Line.tokenAt?_quote] at found
    cases found
  refine ⟨_, spelled, ?_, word_of_tokenAt? found⟩
  generalize (code :: text).drop length = rest at spelled
  simp only [codes, if_neg solid, if_neg noQuote,
    if_neg fun both : atStart = true ∧ _ => noQuestion both.1 both.2, found]
  subst size
  rw [← codes_behind_spelling]
  cases letters : token.spellingCodes with
  | nil => exact absurd letters token.spellingCodes_ne_nil
  | cons first others =>
      rw [letters, List.cons_append] at spelled
      obtain ⟨rfl, rfl⟩ := List.cons.inj spelled
      rfl

/-- Whether a symbol opens a text is seen from the first two codes. -/
theorem symbolAt?_congr {first second : List Code} (head : first.head? = second.head?)
    (code : Code) : symbolAt? (code :: first) = symbolAt? (code :: second) := by
  cases first <;> cases second <;> cases head <;> rfl

theorem symbolAt?_space {text : List Code} (blank : text.head? = some Code.space) (code : Code) :
    symbolAt? (code :: text) = none := by
  cases text with
  | nil => cases blank
  | cons space rest =>
      cases blank
      simp [symbolAt?, Code.space, Code.star, Code.equals, Code.greater]

/-- Whether a word opens a text is seen from its letters and from the code behind them. -/
theorem wordAt?_congr {letters : List Code} (all : ∀ code ∈ letters, code.isLetter = true)
    {first second : List Code} (head : first.head? = second.head?)
    (noLetter : (first.headD Code.newline).isLetter = false) :
    wordAt? (letters ++ first) = wordAt? (letters ++ second) := by
  have whole : ∀ {text : List Code}, (text.headD Code.newline).isLetter = false →
      (letters ++ text).takeWhile Code.isLetter = letters := by
    intro text other
    rw [List.takeWhile_append_of_pos all]
    cases text with
    | nil => exact List.append_nil letters
    | cons code rest =>
        rw [List.headD_cons] at other
        rw [List.takeWhile_cons_of_neg (by simp [other]), List.append_nil]
  have other : (second.headD Code.newline).isLetter = false := by
    rwa [List.headD_eq_head?_getD, ← head, ← List.headD_eq_head?_getD]
  rw [wordAt?, wordAt?, whole noLetter, whole other, List.drop_left, List.drop_left, head]

end Crunch

namespace Line

/-! ## What a listing goes on with -/

/-- Behind a code of a listing there is the listing of a statement, but for spaces and quotes. -/
theorem exists_behind_code {statement : List Code} {atStart : Bool}
    (suited : Suited (.statement atStart) statement) {code : Code}
    (solid : code ≠ Code.space ∧ code ≠ Code.quote) {more : List Code}
    (listed : listBody false statement = code :: more) :
    ∃ rest start, Suited (.statement start) rest ∧ rest.length ≤ statement.length ∧
      listBody false rest = more := by
  cases statement with
  | nil => cases listed
  | cons byte rest =>
      obtain ⟨suits, suitedRest⟩ := suited
      cases found : Token.ofCode? byte with
      | none =>
          rw [listBody_raw found] at listed
          obtain ⟨rfl, rfl⟩ := List.cons.inj listed
          rw [Reading.past_raw found solid.2] at suitedRest
          exact ⟨rest, false, suitedRest, Nat.le_succ _, rfl⟩
      | some token =>
          obtain rfl := Token.ofCode?_eq_some_iff.mp found
          rw [Reading.past_code] at suitedRest
          rw [listBody, found] at listed
          dsimp only at listed
          cases spaced : token.isSpaced with
          | true =>
              rw [spaced] at listed
              exact absurd (List.cons.inj listed).1.symm solid.1
          | false =>
              -- The second code of a symbol goes on as if it stood there for itself.
              obtain ⟨first, second, spelled⟩ := Token.exists_symbols spaced
              have member : second ∈ token.spellingCodes := by simp [spelled]
              have shown := token.shown_spellingCodes second member
              have noBlank := token.solid_spellingCodes second member
              rw [spaced, spelled] at listed
              have raw := Token.ofCode?_shown shown
              have start : Reading.after token = .statement false := by
                cases token with
                | word => cases spaced
                | keyword keyword => cases keyword <;> first | rfl | cases spaced
              have suits : (Reading.statement false).Suits second :=
                ⟨noBlank.1, fun start => absurd start Bool.false_ne_true, .inl shown⟩
              refine ⟨second :: rest, false, ⟨suits, ?_⟩, Nat.le_refl _, ?_⟩
              · rw [Reading.past_raw raw noBlank.2]
                rwa [start] at suitedRest
              · rw [listBody_raw raw]
                exact (List.cons.inj listed).2

theorem exists_behind {front : List Code}
    (solid : ∀ code ∈ front, code ≠ Code.space ∧ code ≠ Code.quote) {statement : List Code}
    {atStart : Bool} (suited : Suited (.statement atStart) statement) {more : List Code}
    (listed : listBody false statement = front ++ more) :
    ∃ rest start, Suited (.statement start) rest ∧ rest.length ≤ statement.length ∧
      listBody false rest = more := by
  induction front generalizing statement atStart with
  | nil => exact ⟨statement, atStart, suited, Nat.le_refl _, listed⟩
  | cons code front inductionHypothesis =>
      obtain ⟨rest, start, suitedRest, fewer, onward⟩ :=
        exists_behind_code suited (solid code List.mem_cons_self) listed
      obtain ⟨last, start, suitedLast, least, ends⟩ :=
        inductionHypothesis (fun code member => solid code (.tail _ member)) suitedRest onward
      exact ⟨last, start, suitedLast, least.trans fewer, ends⟩

/-- Behind a token that a listing opens with there is the listing of a shorter statement. -/
theorem exists_behind_spelling {byte : Code} {rest : List Code} {atStart : Bool}
    (suited : Suited (.statement atStart) (byte :: rest)) (raw : Token.ofCode? byte = none)
    {token : Token} {more : List Code}
    (spelled : byte :: listBody false rest = token.spellingCodes ++ more) :
    ∃ last start, Suited (.statement start) last ∧ last.length ≤ rest.length ∧
      listBody false last = more := by
  have solid := token.solid_spellingCodes
  cases codes : token.spellingCodes with
  | nil => exact absurd codes token.spellingCodes_ne_nil
  | cons first others =>
      rw [codes] at spelled solid
      obtain ⟨rfl, onward⟩ := List.cons.inj spelled
      have suitedRest := suited.2
      rw [Reading.past_raw raw (solid byte List.mem_cons_self).2] at suitedRest
      exact exists_behind (fun code member => solid code (.tail _ member)) suitedRest onward

/-! ## What a listing is listed as -/

theorem head?_listBody_token (token : Token) (first second : List Code) :
    (listBody false (token.code :: first)).head? =
      (listBody false (token.code :: second)).head? := by
  simp only [listBody, Token.ofCode?_code]
  cases spaced : token.isSpaced with
  | true => rfl
  | false =>
      obtain ⟨symbol, other, spelled⟩ := Token.exists_symbols spaced
      rw [spelled]
      rfl

/-- What is read of a listing is listed with the same first code, or with a space before a word. -/
theorem head?_relisted {statement : List Code} {atStart : Bool}
    (suited : Suited (.statement atStart) statement) (afterName : Bool) :
    let relisted := listBody false (codes (listBody false statement) 0 afterName (.statement false))
    relisted.head? = (listBody false statement).head? ∨
      afterName = false ∧ relisted.head? = some Code.space := by
  cases statement with
  | nil => exact .inl rfl
  | cons byte rest =>
      obtain ⟨suits, -⟩ := suited
      cases found : Token.ofCode? byte with
      | some token =>
          obtain rfl := Token.ofCode?_eq_some_iff.mp found
          rw [codes_listBody_token token false fun no => absurd no Bool.false_ne_true]
          exact .inl (head?_listBody_token token _ _)
      | none =>
          rw [listBody_raw found]
          cases opened : tokenAt? afterName (byte :: listBody false rest) with
          | none =>
              have apart : runsOn (.statement false) afterName byte rest = false := by
                simp [runsOn, opened]
              rw [codes_cons_raw suits.further found apart, listBody_raw found]
              exact .inl rfl
          | some pair =>
              obtain ⟨more, spelled, read, word⟩ :=
                Crunch.codes_of_tokenAt? opened suits.1 fun no => absurd no Bool.false_ne_true
              rw [read, spelled]
              simp only [listBody, Token.ofCode?_code]
              cases spaced : pair.1.isSpaced with
              | true => exact .inr ⟨(word spaced).1, rfl⟩
              | false =>
                  obtain ⟨first, second, symbols⟩ := Token.exists_symbols spaced
                  rw [symbols]
                  exact .inl rfl

/-- What a word goes on with in a listing it goes on with when the listing is listed again. -/
theorem wordAt?_relisted {statement : List Code} {atStart : Bool}
    (suited : Suited (.statement atStart) statement) {letters : List Code}
    (all : ∀ code ∈ letters, code.isLetter = true) :
    wordAt? (letters ++
        listBody false (codes (listBody false statement) 0 true (.statement false))) =
      wordAt? (letters ++ listBody false statement) := by
  -- The letters behind a letter are no word in either listing, so they pass over one by one.
  induction statement generalizing letters atStart with
  | nil => rfl
  | cons byte rest inductionHypothesis =>
      have head := (head?_relisted suited true).resolve_right fun both =>
        absurd both.1.symm Bool.false_ne_true
      cases letter : ((listBody false (byte :: rest)).headD Code.newline).isLetter with
      | false =>
          exact (Crunch.wordAt?_congr all head.symm letter).symm
      | true =>
          obtain ⟨suits, suitedRest⟩ := suited
          cases found : Token.ofCode? byte with
          | some token =>
              obtain rfl := Token.ofCode?_eq_some_iff.mp found
              cases token with
              | word word => cases word <;> cases letter
              | keyword keyword => cases keyword <;> cases letter
          | none =>
              rw [listBody_raw found, List.headD_cons] at letter
              have noQuote : byte ≠ Code.quote := Code.ne_of_isLetter letter rfl
              have apart : runsOn (.statement false) true byte rest = false := by
                simp [runsOn, tokenAt?, symbolAt?_letter letter]
              rw [Reading.past_raw found noQuote] at suitedRest
              rw [listBody_raw found, codes_cons_raw suits.further found apart,
                listBody_raw found, Code.isNameCode_of_isLetter letter,
                Reading.past_raw found noQuote, List.append_cons,
                List.append_cons letters byte (listBody false rest)]
              refine inductionHypothesis suitedRest ?_
              simpa [or_imp, forall_and, letter] using all

/-! ## Crunching what is listed, whatever the statement -/

/-- A byte that stayed for itself when a listing was read does so in the next listing. -/
theorem not_runsOn {byte : Code} {rest : List Code} {atStart : Bool}
    (suited : Suited (.statement atStart) (byte :: rest)) (raw : Token.ofCode? byte = none)
    {afterName later : Bool} (lead : afterName = later ∨ byte.isLetter = false)
    (closed : tokenAt? afterName (byte :: listBody false rest) = none) (start : Bool) :
    runsOn (.statement start) later byte (codes (listBody false rest) 0 byte.isNameCode
      ((Reading.statement start).past byte)) = false := by
  by_cases quoted : byte = Code.quote
  · subst quoted
    simp [runsOn, tokenAt?_quote]
  · have suitedRest := suited.2
    rw [Reading.past_raw raw quoted] at suitedRest ⊢
    suffices none : tokenAt? later (byte :: listBody false (codes (listBody false rest) 0
        byte.isNameCode (.statement false))) = none by
      simp [runsOn, none]
    obtain ⟨symbol, word⟩ := Crunch.tokenAt?_eq_none_iff.mp closed
    refine Crunch.tokenAt?_eq_none_iff.mpr ⟨?_, fun fresh => ?_⟩
    · rcases head?_relisted suitedRest byte.isNameCode with same | ⟨-, blank⟩
      · rw [Crunch.symbolAt?_congr same, symbol]
      · exact Crunch.symbolAt?_space blank byte
    · cases letter : byte.isLetter with
      | false => exact Crunch.wordAt?_of_not_isLetter letter
      | true =>
          obtain rfl := lead.resolve_right (by simp [letter])
          rw [Code.isNameCode_of_isLetter letter]
          have same := @wordAt?_relisted rest false suitedRest [byte] (by simp [letter])
          exact same.trans (word fresh)

theorem keepsApart_remark {reading : Reading} (remark : reading.place = .remark)
    (afterName : Bool) (rest : List Code) : keepsApart reading afterName rest = true := by
  induction rest generalizing reading afterName with
  | nil => rfl
  | cons byte rest inductionHypothesis =>
      cases reading with
      | statement | string => cases remark
      | remarkGap | remark => exact inductionHypothesis rfl _

/--
A statement that is listed, and how its listing is read. Behind a word that was made of letters
the next listing has a space and this one has none, but then no letter follows here.
-/
structure Relisted (statement : List Code) (reading read : Reading)
    (spaced afterName later : Bool) : Prop where
  suited : Suited reading statement
  like : read.place = .remark ∨ read.place = reading.place
  blank : spaced = true → afterName = false
  lead : afterName = later ∨ ((listBody spaced statement).headD Code.newline).isLetter = false

/-- Nothing runs together in some bytes if nothing does in what the listing of a statement of no
more than so many bytes is read as. -/
def ApartIfBehind (read : Reading) (later : Bool) (bytes : List Code) (size : Nat) : Prop :=
  ∃ statement reading next spaced afterName again,
    Relisted statement reading next spaced afterName again ∧ statement.length ≤ size ∧
      (keepsApart next again (codes (listBody spaced statement) 0 afterName next) = true →
        keepsApart read later bytes = true)

namespace Relisted

variable {byte : Code} {rest : List Code} {reading read : Reading} {atStart : Bool}
  {start spaced afterName later : Bool}

/-- What is behind a code that the next listing has as well. -/
theorem behind {statement : List Code} (suited : Suited reading statement)
    (like : read.place = .remark ∨ read.place = reading.place) :
    Relisted statement reading read false afterName afterName :=
  ⟨suited, like, fun no => absurd no Bool.false_ne_true, .inl rfl⟩

/-- A token is read as that token again. -/
theorem token {token : Token}
    (relisted : Relisted (token.code :: rest) (.statement atStart) (.statement start) spaced
      afterName later) :
    ApartIfBehind (.statement start) later
      (codes (listBody spaced (token.code :: rest)) 0 afterName (.statement start))
      rest.length := by
  have suitedRest := relisted.suited.2
  rw [Reading.past_code] at suitedRest
  refine ⟨rest, .after token, .after token, token.isSpaced, false, false,
    ⟨suitedRest, .inr rfl, fun _ => rfl, .inl rfl⟩, Nat.le_refl _, fun apart => ?_⟩
  rw [codes_listBody_token token start relisted.blank, keepsApart_token]
  exact apart

/-- A byte of a string is kept. -/
theorem string (relisted : Relisted (byte :: rest) .string .string spaced afterName later) :
    ApartIfBehind .string later (codes (listBody spaced (byte :: rest)) 0 afterName .string)
      rest.length := by
  obtain ⟨shown, suitedRest⟩ := relisted.suited
  have raw := Token.ofCode?_shown shown
  refine ⟨rest, Reading.string.past byte, Reading.string.past byte, false, byte.isNameCode,
    byte.isNameCode, behind suitedRest (.inr rfl), Nat.le_refl _, fun apart => ?_⟩
  rw [listBody_raw raw, codes_cons_raw shown raw rfl, keepsApart]
  exact apart

/-- A byte of a statement that stands for itself stays so, or it becomes part of a token. -/
theorem raw
    (relisted : Relisted (byte :: rest) (.statement atStart) (.statement start) spaced afterName
      later)
    (raw : Token.ofCode? byte = none) :
    ApartIfBehind (.statement start) later
      (codes (listBody spaced (byte :: rest)) 0 afterName (.statement start)) rest.length := by
  obtain ⟨⟨suits, suitedRest⟩, -, -, lead⟩ := relisted
  rw [listBody_raw raw] at lead ⊢
  by_cases asked : start = true ∧ byte = Code.question
  · obtain ⟨rfl, rfl⟩ := asked
    refine ⟨rest, .statement false, .statement false, false, false, false,
      behind suitedRest (.inr rfl), Nat.le_refl _, fun apart => ?_⟩
    exact (keepsApart_token (.word .print) true later _).trans apart
  · have noQuestion : start = true → byte ≠ Code.question :=
      fun first same => asked ⟨first, same⟩
    cases opened : tokenAt? afterName (byte :: listBody false rest) with
    | none =>
        have here : runsOn (.statement start) afterName byte rest = false := by
          simp [runsOn, opened]
        have suitsHere : (Reading.statement start).Suits byte :=
          ⟨suits.1, noQuestion, suits.2.2⟩
        refine ⟨rest, (Reading.statement atStart).past byte, (Reading.statement start).past byte,
          false, byte.isNameCode, byte.isNameCode, behind suitedRest (.inr rfl), Nat.le_refl _,
          fun apart => ?_⟩
        rw [codes_cons_raw suitsHere raw here, keepsApart,
          not_runsOn ⟨suits, suitedRest⟩ raw lead opened start]
        exact apart
    | some pair =>
        obtain ⟨token, length⟩ := pair
        obtain ⟨more, spelled, read, word⟩ := Crunch.codes_of_tokenAt? opened suits.1 noQuestion
        obtain ⟨last, there, suitedLast, fewer, rfl⟩ :=
          exists_behind_spelling ⟨suits, suitedRest⟩ raw spelled
        refine ⟨last, .statement there, .after token, false, token.isSpaced, false,
          ⟨suitedLast, ?_, fun no => absurd no Bool.false_ne_true, ?_⟩, fewer, fun apart => ?_⟩
        · unfold Reading.after
          split
          · exact .inl rfl
          · exact .inr rfl
        · cases spaced : token.isSpaced with
          | false => exact .inl rfl
          | true => exact .inr (word spaced).2
        · rw [read, keepsApart_token]
          exact apart

/-- Reading goes on by a byte that is not lost, and by no more than the statement is long. -/
theorem step (relisted : Relisted (byte :: rest) reading read spaced afterName later)
    (noRemark : read.place ≠ .remark) :
    ApartIfBehind read later (codes (listBody spaced (byte :: rest)) 0 afterName read)
      rest.length := by
  have like := relisted.like.resolve_left noRemark
  cases read with
  | remark | remarkGap => exact absurd rfl noRemark
  | string =>
      obtain rfl : reading = .string := by
        cases reading <;> simp [Reading.place] at like ⊢
      exact relisted.string
  | statement start =>
      obtain ⟨atStart, rfl⟩ : ∃ atStart, reading = .statement atStart := by
        cases reading <;> simp [Reading.place] at like ⊢
      cases found : Token.ofCode? byte with
      | none => exact relisted.raw found
      | some token =>
          obtain rfl := Token.ofCode?_eq_some_iff.mp found
          exact relisted.token

end Relisted

/-- Nothing runs together in what a listing is read as. -/
theorem keepsApart_codes {statement : List Code} {reading read : Reading}
    {spaced afterName later : Bool}
    (relisted : Relisted statement reading read spaced afterName later) :
    keepsApart read later (codes (listBody spaced statement) 0 afterName read) = true := by
  -- By the length of the statement, for a token may take several bytes of it.
  induction bound : statement.length using Nat.strongRecOn
    generalizing statement reading read spaced afterName later with
  | ind length inductionHypothesis =>
      cases statement with
      | nil => cases spaced <;> rfl
      | cons byte rest =>
          by_cases remark : read.place = .remark
          · exact keepsApart_remark remark _ _
          · obtain ⟨last, _, _, _, _, _, behind, fewer, enough⟩ := relisted.step remark
            rw [List.length_cons] at bound
            exact enough (inductionHypothesis last.length (by omega) behind rfl)

/-! ## Spaces at the end -/

theorem listBody_append_spaces (spaced : Bool) (statement : List Code) (count : Nat) :
    listBody spaced (statement ++ List.replicate count Code.space) =
      listBody spaced statement ++ List.replicate count Code.space := by
  have blank : Token.ofCode? Code.space = none := rfl
  induction statement generalizing spaced with
  | nil =>
      rw [List.nil_append]
      induction count generalizing spaced with
      | zero => rfl
      | succ count inductionHypothesis =>
          rw [List.replicate_succ, listBody_raw blank, inductionHypothesis]
          rfl
  | cons byte rest inductionHypothesis =>
      rw [List.cons_append, listBody, listBody]
      cases Token.ofCode? byte with
      | none => simp only [inductionHypothesis, List.cons_append]
      | some token =>
          dsimp only
          split <;> simp [inductionHypothesis]

theorem keepsApart_of_append_spaces {statement : List Code} {reading : Reading} {afterName : Bool}
    {count : Nat}
    (apart : keepsApart reading afterName (statement ++ List.replicate count Code.space) = true) :
    keepsApart reading afterName statement = true := by
  induction statement generalizing reading afterName with
  | nil => rfl
  | cons byte rest inductionHypothesis =>
      obtain ⟨first, others⟩ := Bool.and_eq_true_iff.mp apart
      have same : runsOn reading afterName byte (rest ++ List.replicate count Code.space) =
          runsOn reading afterName byte rest := by
        unfold runsOn
        rw [listBody_append_spaces, ← List.cons_append, Crunch.tokenAt?_append_spaces]
      change (!runsOn reading afterName byte (rest ++ _)) = true at first
      rw [same] at first
      rw [keepsApart, first, inductionHypothesis others]
      rfl

/-- What a listing is read as comes back from its own listing. -/
theorem relistable_codes {statement : List Code} (suited : Suited (.statement true) statement)
    (spaced : Bool) :
    Relistable (codes (trimEnd (listBody spaced statement)) 0 false (.statement true)) := by
  refine ⟨?_, fun last => getLast?_trimEnd _ (Crunch.getLast?_of_codes last)⟩
  obtain ⟨count, listed⟩ := exists_trimEnd_append (listBody spaced statement)
  obtain ⟨more, spaces⟩ := Crunch.codes_append_spaces (trimEnd (listBody spaced statement)) count
    0 false (.statement true)
  have apart := keepsApart_codes (show Relisted statement (.statement true) (.statement true)
    spaced false false from ⟨suited, .inr rfl, fun _ => rfl, .inl rfl⟩)
  rw [listed, spaces] at apart
  exact keepsApart_of_append_spaces apart

/-! ## Lines -/

theorem listBody_digits {digits : List Code} (number : ∀ code ∈ digits, code.isDigit = true)
    (spaced : Bool) (statement : List Code) :
    listBody spaced (digits ++ statement) =
      digits ++ listBody (spaced && digits.isEmpty) statement := by
  induction digits generalizing spaced with
  | nil => rw [List.isEmpty_nil, Bool.and_true]; rfl
  | cons digit digits inductionHypothesis =>
      have raw := Token.ofCode?_digit (number digit List.mem_cons_self)
      rw [List.cons_append, listBody_raw raw,
        inductionHypothesis fun code member => number code (.tail _ member)]
      simp

/-- A line is listed as digits that say the same, and then its statement. -/
theorem exists_listing_ofParts (size : WordSize) {digits : List Code}
    (number : ∀ code ∈ digits, code.isDigit = true) (statement : List Code) :
    ∃ listed spaced, (∀ code ∈ listed, code.isDigit = true) ∧
      ofParts listed = ofParts digits ∧
      (ofParts digits statement).listing size = listed ++ trimEnd (listBody spaced statement) := by
  cases found : numberOf? digits with
  | none =>
      have parts : ofParts digits statement = ⟨0, digits ++ statement⟩ := by rw [ofParts, found]
      refine ⟨digits, digits.isEmpty, number, rfl, ?_⟩
      rw [parts, listing, listNumber, if_pos rfl, List.nil_append]
      change trimEnd (listBody true (digits ++ statement)) = _
      rw [listBody_digits number, trimEnd_append number, Bool.true_and]
  | some value =>
      have parts : ofParts digits statement = ⟨value, statement⟩ := by rw [ofParts, found]
      obtain ⟨positive, within⟩ := bounds_of_numberOf? found
      have solid : ∀ code ∈ Decimal.digits value, code.isDigit = true :=
        fun _ => Decimal.digit_of_mem_digits
      have direct : (Line.mk value statement).isDirect = false :=
        beq_eq_false_iff_ne.mpr (Nat.pos_iff_ne_zero.mp positive)
      refine ⟨Decimal.digits value, false, solid, ?_, ?_⟩
      · funext other
        rw [ofParts, ofParts, found, numberOf?_digits positive within]
      · rw [parts, listing, direct, listNumber_eq size (Nat.pos_iff_ne_zero.mp positive) within,
          trimEnd_append solid]

/-- The text of a listed line spells the same digits, and what the listed statement is read as. -/
theorem exists_ofText_text (size : WordSize) {digits : List Code}
    (number : ∀ code ∈ digits, code.isDigit = true) {statement : List Code}
    (suited : Suited (.statement true) statement)
    (noDigit : (statement.headD Code.newline).isDigit = false) :
    ∃ spaced, Crunch.Opens (trimEnd (listBody spaced statement)) ∧
      ofText ((ofParts digits statement).text size) =
        ofParts digits (codes (trimEnd (listBody spaced statement)) 0 false (.statement true)) := by
  obtain ⟨listed, spaced, solid, parts, listing⟩ := exists_listing_ofParts size number statement
  obtain ⟨count, spaces⟩ := exists_trimEnd_append (listBody spaced statement)
  have opens : Crunch.Opens (trimEnd (listBody spaced statement)) :=
    Crunch.Opens.of_append (spaces ▸ opens_listBody suited noDigit spaced)
  have shown : ∀ code ∈ (ofParts digits statement).listing size, code < 0x40 := by
    rw [listing]
    intro code member
    rcases List.mem_append.mp member with digit | body
    · exact Code.shown_of_isDigit (solid code digit)
    · exact shown_listBody suited spaced code (mem_of_mem_trimEnd body)
  refine ⟨spaced, opens, ?_⟩
  rw [ofText, text, Code.encode_decode _ shown, listing, ofCodes_append solid opens, parts]

/-- The line that a listing spells is spelled by its own listing as well. -/
theorem ofText_text_settled (size : WordSize) (text : String) :
    ofText ((ofText ((ofText text).text size)).text size) = ofText ((ofText text).text size) := by
  obtain ⟨digits, statement, number, opens, part, same⟩ := exists_ofCodes_eq (Code.encode text)
  have shown : ∀ code ∈ statement, code < 0x40 :=
    fun code member => Code.shown_encode text code (part code member)
  have suited := Crunch.suited_codes shown 0 false (.statement true)
  have noDigit := Crunch.isDigit_head_codes opens false true
  rw [show ofText text = _ from same]
  generalize codes statement 0 false (.statement true) = body at suited noDigit
  obtain ⟨spaced, opensOnce, once⟩ := exists_ofText_text size number suited noDigit
  have relistable := relistable_codes suited spaced
  have shownOnce : ∀ code ∈ trimEnd (listBody spaced body), code < 0x40 :=
    fun code member => shown_listBody suited spaced code (mem_of_mem_trimEnd member)
  have suitedOnce := Crunch.suited_codes shownOnce 0 false (.statement true)
  have noDigitOnce := Crunch.isDigit_head_codes opensOnce false true
  rw [once]
  generalize codes (trimEnd (listBody spaced body)) 0 false (.statement true) = settled at *
  obtain ⟨spacedAgain, -, again⟩ := exists_ofText_text size number suitedOnce noDigitOnce
  rw [again, (codes_trimEnd_listBody_iff suitedOnce spacedAgain).mpr relistable]

/--
A text that is listed, typed as it is listed and listed again spells the same line from then on,
with the same number and the same statement: what the first listing spells.
-/
theorem listing_settles (size : WordSize) (text : String) :
    let listed := fun text : String => (ofText text).text size
    ofText (listed (listed text)) = ofText (listed text) ∧
      ∀ trips, ofText (listed^[trips + 1] text) = ofText (listed text) := by
  intro listed
  have settled : ofText (listed (listed text)) = ofText (listed text) :=
    ofText_text_settled size text
  refine ⟨settled, fun trips => ?_⟩
  induction trips with
  | zero => rfl
  | succ trips inductionHypothesis =>
      have again : listed (listed^[trips + 1] text) = listed (listed text) :=
        congrArg (Line.text size) inductionHypothesis
      rw [Function.iterate_succ_apply', again, settled]

/-- The first listing may make a word of codes that were typed apart. -/
example : ofText ((ofText "10 P RINT").text .short) ≠ ofText "10 P RINT" := by decide +kernel

end Line
end HomeBasic
