import HomeBasic.Proofs.Line.Crunching
import HomeBasic.Proofs.Number.Words

/-!
# Lines that come back from their listing

A listing is read again as it is spelled, not as it was typed. Codes that were typed apart
stand together in it, and where they make a word or a symbol they are crunched to its byte;
and spaces at its end, which a remark keeps, are left off.

Main statement: a line with a number comes back from its listing exactly if nothing runs
together in it and it does not end in a space (`ofCodes_listing_iff`).
-/

namespace HomeBasic

open Crunch (Reading Suited codes tokenAt? symbolAt? wordAt?)

/-- A token with a space on either side is spelled with letters. -/
theorem Token.exists_letters {token : Token} (spaced : token.isSpaced = true) :
    ∃ first others, token.spellingCodes = first :: others ∧
      ∀ code ∈ token.spellingCodes, code.isLetter = true := by
  rw [← List.all_eq_true]
  cases token with
  | word word => cases word <;> exact ⟨_, _, rfl, rfl⟩
  | keyword keyword => cases keyword <;> first | exact ⟨_, _, rfl, rfl⟩ | cases spaced

theorem Token.shown_spellingCodes (token : Token) : ∀ code ∈ token.spellingCodes, code < 0x40 := by
  have all : token.spellingCodes.all (· < 0x40) = true := by
    cases token with
    | word word => cases word <;> rfl
    | keyword keyword => cases keyword <;> rfl
  simpa only [List.all_eq_true, decide_eq_true_eq] using all

theorem Code.ne_of_isLetter {code other : Code} (letter : code.isLetter = true)
    (noLetter : other.isLetter = false) : code ≠ other := by
  rintro rfl
  exact Bool.false_ne_true (noLetter.symm.trans letter)

theorem Code.shown_of_isDigit {code : Code} (digit : code.isDigit = true) : code < 0x40 := by
  simp only [isDigit, Bool.and_eq_true, decide_eq_true_eq, UInt8.le_iff_toNat_le] at digit
  exact UInt8.lt_iff_toNat_lt.mpr (Nat.lt_of_le_of_lt digit.2 (by decide))

namespace Line

/-- Listed, a byte that stands for itself opens a word or a symbol of the statement. -/
def runsOn (reading : Reading) (afterName : Bool) (byte : Code) (rest : List Code) : Bool :=
  match reading with
  | .statement _ =>
      (Token.ofCode? byte).isNone && (tokenAt? afterName (byte :: listBody false rest)).isSome
  | _ => false

/-- Nothing runs together in the listing of a statement. -/
def keepsApart : Reading → (afterName : Bool) → List Code → Bool
  | _, _, [] => true
  | reading, afterName, byte :: rest =>
      !runsOn reading afterName byte rest &&
        keepsApart (reading.past byte) byte.isNameCode rest

/-- A statement that comes back from its listing. -/
def Relistable (statement : List Code) : Prop :=
  keepsApart (.statement true) false statement = true ∧
    statement.getLast? ≠ some Code.space

instance (statement : List Code) : Decidable (Relistable statement) :=
  inferInstanceAs (Decidable (_ ∧ _))

/-! ## Crunching what is listed of a byte -/

/-- What is left of a word and the space behind it is passed over. -/
theorem codes_pass (front rest : List Code) (afterName : Bool) (token : Token) :
    codes (front ++ Code.space :: rest) front.length afterName (.after token) =
      codes rest 0 false (.after token) := by
  induction front generalizing afterName with
  | nil =>
      change codes (Code.space :: rest) 0 afterName (.after token) = _
      unfold Reading.after
      split <;> rfl
  | cons code front inductionHypothesis => exact inductionHypothesis _

theorem tokenAt?_quote (afterName : Bool) (rest : List Code) :
    tokenAt? afterName (Code.quote :: rest) = none := by
  cases rest <;> cases afterName <;> rfl

theorem listBody_raw {byte : Code} (raw : Token.ofCode? byte = none) (spaced : Bool)
    (rest : List Code) : listBody spaced (byte :: rest) = byte :: listBody false rest := by
  rw [listBody, raw]

/-- A byte for itself is read again, if it does not run on. -/
theorem codes_cons_raw {reading : Reading} {byte : Code} (suits : reading.Suits byte)
    (raw : Token.ofCode? byte = none) {afterName : Bool} {rest : List Code}
    (apart : runsOn reading afterName byte rest = false) :
    codes (byte :: listBody false rest) 0 afterName reading =
      byte :: codes (listBody false rest) 0 byte.isNameCode (reading.past byte) := by
  cases reading with
  | remark | string => rfl
  | remarkGap => simp only [codes, if_neg suits.2, Reading.past]
  | statement atStart =>
      have token : tokenAt? afterName (byte :: listBody false rest) = none := by
        simpa [runsOn, raw] using apart
      simp only [codes, if_neg suits.1, token, Reading.past, raw]
      have noQuestion : ¬(atStart = true ∧ byte = Code.question) :=
        fun both => suits.2.1 both.1 both.2
      split_ifs <;> rfl

/-- A byte that runs on is lost. -/
theorem codes_cons_runsOn {reading : Reading} {byte : Code} (suits : reading.Suits byte)
    {afterName : Bool} {rest : List Code} (merged : runsOn reading afterName byte rest = true)
    (more : List Code) :
    codes (byte :: listBody false rest) 0 afterName reading ≠ byte :: more := by
  cases reading with
  | remark | string | remarkGap => cases merged
  | statement atStart =>
      obtain ⟨raw, opened⟩ := Bool.and_eq_true_iff.mp merged
      obtain ⟨found, token⟩ := Option.isSome_iff_exists.mp opened
      have noQuote : byte ≠ Code.quote := by
        rintro rfl
        rw [tokenAt?_quote] at token
        cases token
      have noQuestion : ¬(atStart = true ∧ byte = Code.question) :=
        fun both => suits.2.1 both.1 both.2
      simp only [codes, if_neg suits.1, if_neg noQuote, if_neg noQuestion, token]
      intro same
      rw [← (List.cons.inj same).1, Token.ofCode?_code] at raw
      cases raw

theorem symbolAt?_letter {code : Code} (letter : code.isLetter = true) (rest : List Code) :
    symbolAt? (code :: rest) = none := by
  refine Crunch.symbolAt?_plain (fun member => ?_) rest
  simp only [List.mem_cons, List.not_mem_nil, or_false] at member
  rcases member with rfl | rfl | rfl <;> cases letter

/-- A word between spaces is read as its token. -/
theorem codes_spelling {token : Token} (spaced : token.isSpaced = true) (atStart : Bool)
    (rest : List Code) :
    codes (token.spellingCodes ++ Code.space :: rest) 0 false (.statement atStart) =
      token.code :: codes rest 0 false (.after token) := by
  obtain ⟨first, others, spelled, letters⟩ := Token.exists_letters spaced
  have opens : first.isLetter = true := letters first (by simp [spelled])
  have solid : first ≠ Code.space := Code.ne_of_isLetter opens rfl
  have noQuote : first ≠ Code.quote := Code.ne_of_isLetter opens rfl
  have noQuestion : ¬(atStart = true ∧ first = Code.question) :=
    fun both => Code.ne_of_isLetter opens rfl both.2
  have whole : (token.spellingCodes ++ Code.space :: rest).takeWhile Code.isLetter =
      token.spellingCodes := by
    rw [List.takeWhile_append_of_pos letters]
    simp [show Code.space.isLetter = false from rfl]
  have word : wordAt? (token.spellingCodes ++ Code.space :: rest) =
      some (token, token.spellingCodes.length) := by
    rw [wordAt?, whole, List.drop_left, Token.ofCodes?_spellingCodes, spelled]
    rfl
  have found : tokenAt? false (token.spellingCodes ++ Code.space :: rest) =
      some (token, token.spellingCodes.length) := by
    rw [tokenAt?, spelled, List.cons_append, symbolAt?_letter opens, ← List.cons_append, ← spelled]
    exact word
  rw [spelled, List.cons_append] at found ⊢
  simp only [codes, if_neg solid, if_neg noQuote, if_neg noQuestion, found, List.length_cons,
    Nat.add_sub_cancel, codes_pass]

/-- The listing of a token is read as that token. -/
theorem codes_listBody_token (token : Token) {afterName spaced : Bool} (atStart : Bool)
    (blank : spaced = true → afterName = false) (rest : List Code) :
    codes (listBody spaced (token.code :: rest)) 0 afterName (.statement atStart) =
      token.code :: codes (listBody token.isSpaced rest) 0 false (.after token) := by
  rw [listBody, Token.ofCode?_code]
  dsimp only
  cases word : token.isSpaced with
  | true =>
      rw [if_pos rfl, List.append_assoc]
      cases spaced with
      | true => rw [blank rfl]; exact codes_spelling word atStart _
      | false => exact codes_spelling word atStart _
  | false =>
      cases token with
      | word => cases word
      | keyword keyword => cases keyword <;> first | (cases atStart <;> rfl) | cases word

/-! ## Crunching what is listed of a statement -/

theorem keepsApart_token (token : Token) (atStart afterName : Bool) (rest : List Code) :
    keepsApart (.statement atStart) afterName (token.code :: rest) =
      keepsApart (.after token) false rest := by
  rw [keepsApart, Reading.past_code, Token.isNameCode_code]
  simp [runsOn]

/-- A listed statement comes back if nothing runs together in it. -/
theorem codes_listBody {statement : List Code} {reading : Reading}
    (suited : Suited reading statement) {afterName spaced : Bool}
    (blank : spaced = true → afterName = false)
    (apart : keepsApart reading afterName statement = true) :
    codes (listBody spaced statement) 0 afterName reading = statement := by
  -- `blank` lasts since a spaced word leaves a space behind it, and no name goes on after that.
  induction statement generalizing reading afterName spaced with
  | nil => rfl
  | cons byte rest inductionHypothesis =>
      obtain ⟨suits, suitedRest⟩ := suited
      cases found : Token.ofCode? byte with
      | none =>
          obtain ⟨first, others⟩ := Bool.and_eq_true_iff.mp apart
          rw [listBody_raw found, codes_cons_raw suits found (by simpa using first)]
          rw [inductionHypothesis suitedRest (fun no : false = true => nomatch no) others]
      | some token =>
          obtain rfl := Token.ofCode?_eq_some_iff.mp found
          obtain ⟨atStart, rfl⟩ := suits.statement_of_token
          rw [keepsApart_token] at apart
          rw [Reading.past_code] at suitedRest
          rw [codes_listBody_token token atStart blank,
            inductionHypothesis suitedRest (fun _ : token.isSpaced = true => rfl) apart]

/-- A statement that begins what its listing is read as has nothing run together in it. -/
theorem keepsApart_of_codes_listBody {statement : List Code} {reading : Reading}
    (suited : Suited reading statement) {afterName spaced : Bool}
    (blank : spaced = true → afterName = false) {more : List Code}
    (read : codes (listBody spaced statement) 0 afterName reading = statement ++ more) :
    keepsApart reading afterName statement = true := by
  induction statement generalizing reading afterName spaced with
  | nil => rfl
  | cons byte rest inductionHypothesis =>
      obtain ⟨suits, suitedRest⟩ := suited
      cases found : Token.ofCode? byte with
      | none =>
          rw [listBody_raw found] at read
          have apart : runsOn reading afterName byte rest = false :=
            Bool.eq_false_iff.mpr fun merged => codes_cons_runsOn suits merged _ read
          rw [codes_cons_raw suits found apart] at read
          have onward := inductionHypothesis suitedRest (fun no : false = true => nomatch no)
            (List.cons.inj read).2
          rw [keepsApart, apart, onward]
          rfl
      | some token =>
          obtain rfl := Token.ofCode?_eq_some_iff.mp found
          obtain ⟨atStart, rfl⟩ := suits.statement_of_token
          rw [Reading.past_code] at suitedRest
          rw [codes_listBody_token token atStart blank] at read
          have onward := inductionHypothesis suitedRest (fun _ : token.isSpaced = true => rfl)
            (List.cons.inj read).2
          rw [keepsApart_token, onward]

/-! ## Spaces at the end -/

theorem exists_trimEnd_append (text : List Code) :
    ∃ count, text = trimEnd text ++ List.replicate count Code.space := by
  have blank : ∀ code ∈ text.reverse.takeWhile (· == Code.space), code = Code.space :=
    fun code member => eq_of_beq (List.all_eq_true.mp List.all_takeWhile code member)
  have parts := congrArg List.reverse
    (List.takeWhile_append_dropWhile (p := (· == Code.space)) (l := text.reverse))
  rw [List.reverse_append, List.reverse_reverse, List.eq_replicate_of_mem blank,
    List.reverse_replicate] at parts
  exact ⟨_, parts.symm⟩

theorem getLast?_trimEnd (text : List Code) : (trimEnd text).getLast? ≠ some Code.space := by
  intro last
  rw [trimEnd, List.getLast?_reverse] at last
  have kept := List.head?_dropWhile_not (· == Code.space) text.reverse
  rw [last] at kept
  cases kept

theorem trimEnd_append {number : List Code} (digits : ∀ code ∈ number, code.isDigit = true)
    (text : List Code) : trimEnd (number ++ text) = number ++ trimEnd text := by
  have solid : number.reverse.dropWhile (· == Code.space) = number.reverse := by
    cases reversed : number.reverse with
    | nil => rfl
    | cons last others =>
        have digit := digits last (List.mem_reverse.mp (by simp [reversed]))
        refine List.dropWhile_cons_of_neg fun blank => ?_
        rw [eq_of_beq blank] at digit
        cases digit
  rw [trimEnd, List.reverse_append, List.dropWhile_append]
  split
  next none =>
    rw [List.isEmpty_iff] at none
    rw [solid, List.reverse_reverse, trimEnd, none, List.reverse_nil, List.append_nil]
  next => rw [List.reverse_append, List.reverse_reverse, trimEnd]

/-- The listing without the spaces at its end is read as the statement if it comes back at all. -/
theorem codes_trimEnd_listBody_iff {statement : List Code}
    (suited : Suited (.statement true) statement) (spaced : Bool) :
    codes (trimEnd (listBody spaced statement)) 0 false (.statement true) = statement ↔
      Relistable statement := by
  have blank : spaced = true → false = false := fun _ => rfl
  obtain ⟨count, listed⟩ := exists_trimEnd_append (listBody spaced statement)
  obtain ⟨more, spaces⟩ := Crunch.codes_append_spaces (trimEnd (listBody spaced statement)) count
    0 false (.statement true)
  rw [← listed] at spaces
  constructor
  · intro same
    rw [same] at spaces
    refine ⟨keepsApart_of_codes_listBody suited blank spaces, fun last => ?_⟩
    rw [← same] at last
    exact getLast?_trimEnd _ (Crunch.getLast?_of_codes last)
  · rintro ⟨apart, solid⟩
    rw [codes_listBody suited blank apart] at spaces
    cases more with
    | zero => exact (spaces.trans (List.append_nil _)).symm
    | succ more =>
        rw [List.replicate_succ', ← List.append_assoc] at spaces
        exact absurd (by rw [spaces, List.getLast?_concat]) solid

/-! ## Lines -/

theorem bounds_of_numberOf? {digits : List Code} {number : Nat}
    (found : numberOf? digits = some number) : 0 < number ∧ number ≤ maxNumber := by
  rw [numberOf?, Option.ite_none_right_eq_some] at found
  obtain ⟨⟨_, _, bounds⟩, same⟩ := found
  exact Option.some.inj same ▸ bounds

/-- The line of digits and a statement: digits that are no line number are part of the body. -/
def ofParts (digits statement : List Code) : Line :=
  match numberOf? digits with
  | some number => ⟨number, statement⟩
  | none => ⟨0, digits ++ statement⟩

/-- A text that is a line number and a statement spells the line of these. -/
theorem ofCodes_append {digits statement : List Code}
    (number : ∀ code ∈ digits, code.isDigit = true) (opens : Crunch.Opens statement) :
    ofCodes (digits ++ statement) =
      ofParts digits (codes statement 0 false (.statement true)) := by
  have bytes : (crunch (digits ++ statement)).bytes =
      digits ++ codes statement 0 false (.statement true) ++ [Code.newline] :=
    Crunch.map_fst_line_append number opens 0
  have noDigit := Crunch.isDigit_head_codes opens false true
  have front : (digits ++ codes statement 0 false (.statement true)).takeWhile Code.isDigit =
      digits := by
    rw [List.takeWhile_append_of_pos number]
    cases body : codes statement 0 false (.statement true) with
    | nil => exact List.append_nil digits
    | cons byte rest =>
        rw [body, List.headD_cons] at noDigit
        rw [List.takeWhile_cons_of_neg (by simp [noDigit]), List.append_nil]
  cases found : numberOf? digits with
  | none => simp only [ofCodes, ofParts, bytes, List.dropLast_concat, front, found]
  | some number =>
      simp only [ofCodes, ofParts, bytes, List.dropLast_concat, front, found, List.drop_left]

/-- Every text spells the line of the digits it opens with and of its statement. -/
theorem exists_ofCodes_eq (text : List Code) :
    ∃ digits statement, (∀ code ∈ digits, code.isDigit = true) ∧ Crunch.Opens statement ∧
      (∀ code ∈ statement, code ∈ text) ∧
      ofCodes text = ofParts digits (codes statement 0 false (.statement true)) := by
  obtain ⟨digits, statement, number, opens, part, bytes⟩ := Crunch.exists_crunch_eq text
  have other : (crunch (digits ++ statement)).bytes =
      digits ++ codes statement 0 false (.statement true) ++ [Code.newline] :=
    Crunch.map_fst_line_append number opens 0
  refine ⟨digits, statement, number, opens, part, ?_⟩
  rw [← ofCodes_append number opens, ofCodes, bytes, ← other, ← ofCodes]

/-- The number and the statement that a text spells, with the codes that the statement is of. -/
theorem exists_of_ofCodes {text : List Code} (numbered : (ofCodes text).number ≠ 0) :
    ∃ statement, Crunch.Opens statement ∧ (∀ code ∈ statement, code ∈ text) ∧
      (ofCodes text).body = codes statement 0 false (.statement true) ∧
      (ofCodes text).number ≤ maxNumber := by
  obtain ⟨digits, statement, _, opens, part, same⟩ := exists_ofCodes_eq text
  rw [same, ofParts] at numbered ⊢
  refine ⟨statement, opens, part, ?_⟩
  cases found : numberOf? digits with
  | none =>
      rw [found] at numbered
      exact absurd rfl numbered
  | some value => exact ⟨rfl, (bounds_of_numberOf? found).2⟩

theorem opens_listBody {statement : List Code} (suited : Suited (.statement true) statement)
    (noDigit : (statement.headD Code.newline).isDigit = false) (spaced : Bool) :
    Crunch.Opens (listBody spaced statement) := by
  cases statement with
  | nil => rfl
  | cons byte rest =>
      cases found : Token.ofCode? byte with
      | none =>
          have solid : (byte == Code.space) = false := beq_eq_false_iff_ne.mpr suited.1.1
          rw [listBody_raw found, Crunch.Opens, List.dropWhile_cons_of_neg (by simp [solid])]
          exact noDigit
      | some token =>
          obtain rfl := Token.ofCode?_eq_some_iff.mp found
          cases token with
          | word word => cases spaced <;> cases word <;> rfl
          | keyword keyword => cases spaced <;> cases keyword <;> rfl

theorem numberOf?_digits {number : Nat} (numbered : 0 < number) (within : number ≤ maxNumber) :
    numberOf? (Decimal.digits number) = some number := by
  have length : (Decimal.digits number).length ≤ 4 := by
    rw [Decimal.digits, List.length_map, Nat.length_toDigits_le_iff (by decide) (by decide)]
    exact Nat.lt_of_le_of_lt within (by decide)
  have some : 0 < (Decimal.digits number).length := by
    rw [Decimal.digits, List.length_map]
    exact Nat.length_toDigits_pos
  rw [numberOf?, Decimal.valueOf_digits, if_pos ⟨some, length, numbered, within⟩]

theorem listNumber_eq (size : WordSize) {number : Nat} (numbered : number ≠ 0)
    (within : number ≤ maxNumber) : listNumber size number = Decimal.digits number := by
  have fits : size.Fits number := by
    apply WordSize.fits_of_natAbs_lt
    have small : (number : Int).natAbs < 32768 := Nat.lt_of_le_of_lt within (by decide)
    exact Nat.lt_of_lt_of_le small (by cases size <;> decide)
  rw [listNumber, if_neg numbered, WordSize.wrap_of_fits fits, Decimal.format,
    if_neg (Int.not_lt.mpr (Int.natCast_nonneg number)), Int.natAbs_natCast]

/-- The listing of a line with a number spells that number and what its statement is read as. -/
theorem ofCodes_listing {text : List Code} (shown : ∀ code ∈ text, code < 0x40)
    (numbered : (ofCodes text).number ≠ 0) (size : WordSize) :
    Suited (.statement true) (ofCodes text).body ∧
      ofCodes ((ofCodes text).listing size) = ⟨(ofCodes text).number,
        codes (trimEnd (listBody false (ofCodes text).body)) 0 false (.statement true)⟩ := by
  obtain ⟨statement, opens, part, body, within⟩ := exists_of_ofCodes numbered
  have suited : Suited (.statement true) (ofCodes text).body := by
    rw [body]
    exact Crunch.suited_codes (fun code member => shown code (part code member)) 0 false _
  have noDigit : ((ofCodes text).body.headD Code.newline).isDigit = false := by
    rw [body]
    exact Crunch.isDigit_head_codes opens false true
  refine ⟨suited, ?_⟩
  generalize ofCodes text = line at *
  have digits : ∀ code ∈ Decimal.digits line.number, code.isDigit = true :=
    fun code => Decimal.digit_of_mem_digits
  have direct : line.isDirect = false := beq_eq_false_iff_ne.mpr numbered
  obtain ⟨count, listed⟩ := exists_trimEnd_append (listBody false line.body)
  have kept : Crunch.Opens (trimEnd (listBody false line.body)) :=
    Crunch.Opens.of_append (listed ▸ opens_listBody suited noDigit false)
  rw [listing, direct, listNumber_eq size numbered within, trimEnd_append digits,
    ofCodes_append digits kept, ofParts, numberOf?_digits (Nat.pos_of_ne_zero numbered) within]

/-- A line with a number comes back from its listing exactly if its statement does. -/
theorem ofCodes_listing_iff {text : List Code} (shown : ∀ code ∈ text, code < 0x40)
    (numbered : (ofCodes text).number ≠ 0) (size : WordSize) :
    ofCodes ((ofCodes text).listing size) = ofCodes text ↔ Relistable (ofCodes text).body := by
  obtain ⟨suited, again⟩ := ofCodes_listing shown numbered size
  rw [again, ← codes_trimEnd_listBody_iff suited false]
  generalize ofCodes text = line
  obtain ⟨number, body⟩ := line
  simp only [Line.mk.injEq, true_and]

/-- A remark loses the spaces at its end. -/
example : ¬Relistable (ofText "10 REM HI ").body := by decide

/-! ## Listings as text -/

theorem shown_listBody {statement : List Code} {reading : Reading}
    (suited : Suited reading statement) (spaced : Bool) :
    ∀ code ∈ listBody spaced statement, code < 0x40 := by
  induction statement generalizing reading spaced with
  | nil => exact fun code member => nomatch member
  | cons byte rest inductionHypothesis =>
      obtain ⟨suits, suitedRest⟩ := suited
      have onward := inductionHypothesis suitedRest
      have blank : Code.space < 0x40 := by decide
      cases found : Token.ofCode? byte with
      | none =>
          rw [listBody_raw found]
          exact List.forall_mem_cons.mpr ⟨suits.shown found, onward false⟩
      | some token =>
          have spelled := token.shown_spellingCodes
          rw [listBody, found]
          dsimp only
          split
          · cases spaced <;>
              simp only [Bool.false_eq_true, if_true, if_false, List.nil_append, List.cons_append,
                List.forall_mem_cons, List.forall_mem_append, blank, true_and] <;>
              exact ⟨spelled, onward true⟩
          · exact List.forall_mem_append.mpr ⟨spelled, onward false⟩

/-- What is listed of a line that was typed is read again as the codes it is listed in. -/
theorem ofText_text {text : List Code} (shown : ∀ code ∈ text, code < 0x40)
    (numbered : (ofCodes text).number ≠ 0) (size : WordSize) :
    ofText ((ofCodes text).text size) = ofCodes ((ofCodes text).listing size) := by
  obtain ⟨_, _, _, _, within⟩ := exists_of_ofCodes numbered
  have suited := (ofCodes_listing shown numbered size).1
  have listed : ∀ code ∈ (ofCodes text).listing size, code < 0x40 := by
    intro code member
    rcases List.mem_append.mp (mem_of_mem_trimEnd member) with number | body
    · rw [listNumber_eq size numbered within] at number
      exact Code.shown_of_isDigit (Decimal.digit_of_mem_digits number)
    · exact shown_listBody suited _ code body
  rw [ofText, Line.text, Code.encode_decode _ listed]

end Line
end HomeBasic
