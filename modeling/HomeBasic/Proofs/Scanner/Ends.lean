import HomeBasic.Proofs.Attempt.Repeats
import HomeBasic.Proofs.Scanner.Movement
import HomeBasic.Verdict

/-!
# Code by code

Whatever a scanner passes over at one go, it can pass over code by code: spaces, so many codes,
the rest of a line, digits, a name or a text. Each of these is a turn that is taken until it finds
a code that ends it. The end of the line ends every one of them, and the end of the bytes counts
as one, so all of them end.

Main statement: repeating the turns comes to what the scanner does at one go, for any bytes and
any place in them (`Scanner.ends`).
-/

namespace HomeBasic
namespace Scanner

variable {scanner : Scanner} {keep : Code → Bool}

theorem stops_of_takeWhile_nil (stops : keep Code.newline = false)
    (none : scanner.rest.takeWhile keep = []) : keep scanner.current = false := by
  rcases scanner with ⟨position, codes, watched, glyph, wordExpected⟩
  cases codes with
  | nil => exact stops
  | cons code rest =>
      cases kept : keep code with
      | false => exact kept
      | true => simp [kept] at none

theorem keeps_of_takeWhile_cons {code : Code} {codes : List Code}
    (some : scanner.rest.takeWhile keep = code :: codes) :
    scanner.current = code ∧ keep code = true ∧ (scanner.pass 1).rest.takeWhile keep = codes := by
  rcases scanner with ⟨position, rest, watched, glyph, wordExpected⟩
  cases rest with
  | nil => cases some
  | cons first rest =>
      cases kept : keep first with
      | false => simp [kept] at some
      | true =>
          simp only [List.takeWhile_cons, kept, if_true, List.cons.injEq] at some
          obtain ⟨rfl, rfl⟩ := some
          exact ⟨rfl, kept, rfl⟩

/-! ## Passing over codes -/

/-- A space is passed over. -/
def spaceTurn (scanner : Scanner) : Scanner ⊕ Scanner :=
  if scanner.current = Code.space then .inl (scanner.pass 1) else .inr scanner

/-- One of so many codes is passed over, unless the line ends. -/
def skipTurn : Nat × Scanner → (Nat × Scanner) ⊕ Scanner
  | (0, scanner) => .inr scanner
  | (count + 1, scanner) =>
      if scanner.current = Code.newline then .inr scanner else .inl (count, scanner.pass 1)

/-- A code is passed over, unless the line ends. -/
def endTurn (scanner : Scanner) : Scanner ⊕ Scanner :=
  if scanner.current = Code.newline then .inr scanner else .inl (scanner.pass 1)

/-- Codes that are to be kept are passed over, one at a time or all at once. -/
theorem repeats_pass {turn : Scanner → Scanner ⊕ Scanner} (stops : keep Code.newline = false)
    (kept : ∀ scanner, keep scanner.current = true → turn scanner = .inl (scanner.pass 1))
    (stopped : ∀ scanner, keep scanner.current = false → turn scanner = .inr scanner)
    (scanner : Scanner) :
    Repeats turn scanner (scanner.pass (scanner.rest.takeWhile keep).length) := by
  generalize ahead : scanner.rest.takeWhile keep = codes
  induction codes generalizing scanner with
  | nil => exact .done (stopped scanner (stops_of_takeWhile_nil stops ahead))
  | cons code codes inductionHypothesis =>
      obtain ⟨rfl, keeps, rest⟩ := keeps_of_takeWhile_cons ahead
      rw [List.length_cons, Nat.add_comm, ← pass_pass]
      exact .again (kept scanner keeps) (inductionHypothesis (scanner.pass 1) rest)

theorem repeats_skipSpaces (scanner : Scanner) :
    Repeats spaceTurn scanner scanner.skipSpaces := by
  refine repeats_pass (by decide) (fun scanner here => ?_) (fun scanner here => ?_) scanner
  · exact if_pos (eq_of_beq here)
  · exact if_neg (ne_of_beq_false here)

theorem repeats_skipToEnd (scanner : Scanner) : Repeats endTurn scanner scanner.skipToEnd := by
  refine repeats_pass (by decide) (fun scanner here => ?_) (fun scanner here => ?_) scanner
  · exact if_neg (by simpa using here)
  · exact if_pos (by simpa using here)

theorem repeats_skip (scanner : Scanner) (count : Nat) :
    Repeats skipTurn (count, scanner) (scanner.skip count) := by
  rw [skip]
  generalize ahead : scanner.rest.takeWhile (· != Code.newline) = codes
  rw [codesLeft, ahead]
  induction codes generalizing scanner count with
  | nil =>
      have ended : scanner.current = Code.newline := by
        simpa using stops_of_takeWhile_nil (by decide) ahead
      rw [List.length_nil, Nat.min_zero]
      cases count with
      | zero => exact .done rfl
      | succ count => exact .done (if_pos ended)
  | cons code codes inductionHypothesis =>
      obtain ⟨rfl, more, rest⟩ := keeps_of_takeWhile_cons ahead
      cases count with
      | zero =>
          rw [Nat.zero_min]
          exact .done rfl
      | succ count =>
          have further := inductionHypothesis (scanner.pass 1) count rest
          rw [List.length_cons, Nat.add_min_add_right, Nat.add_comm (min count codes.length) 1,
            ← pass_pass]
          exact .again (if_neg (by simpa using more)) further

/-! ## Reading -/

/-- A digit is read, if the number with it fits a word. -/
def digitTurn (size : WordSize) (value : Int) : Attempt Scanner (Int ⊕ Int) := do
  let scanner ← get
  if scanner.current.isDigit then do
    let value ← Attempt.ofExcept (size.checked (10 * value + scanner.current.digitValue))
    modify (·.pass 1)
    return .inl value
  else
    return .inr value

/-- A digit of a line number is read and counted. -/
def lineNumberTurn : Nat × Nat × Scanner → (Nat × Nat × Scanner) ⊕ (Nat × Nat × Scanner)
  | (number, count, scanner) =>
      if scanner.current.isDigit then
        .inl ((10 * number + scanner.current.digitValue) % 65536, count + 1, scanner.pass 1)
      else
        .inr (number, count, scanner)

/-- A code of a name is counted. -/
def nameTurn (scanner : Scanner) (length : Nat) : Nat ⊕ Nat :=
  if (scanner.pass length).current.isNameCode then .inl (length + 1) else .inr length

/-- A code of a text is read, or the quote that ends it is passed over. -/
def textTurn (text : List Code) : Attempt Scanner (List Code ⊕ List Code) := do
  let scanner ← get
  if scanner.current = Code.newline then
    throw .syntaxError
  else if scanner.current = Code.quote then do
    modify advance
    return .inr text
  else do
    modify (·.pass 1)
    return .inl (text ++ [scanner.current])

theorem digitTurn_apply (size : WordSize) (value : Int) (scanner : Scanner) :
    digitTurn size value scanner =
      if scanner.current.isDigit then
        match size.checked (10 * value + scanner.current.digitValue) with
        | .ok next => (.ok (.inl next), scanner.pass 1)
        | .error fault => (.error fault, scanner)
      else (.ok (.inr value), scanner) := by
  rw [digitTurn, Attempt.bind_apply, Attempt.get_apply]
  dsimp only
  split
  · rw [Attempt.bind_apply, Attempt.ofExcept_apply]
    cases size.checked (10 * value + scanner.current.digitValue) <;> rfl
  · rfl

theorem repeats_readNumber (size : WordSize) (scanner : Scanner) :
    Repeats (Attempt.turn (digitTurn size)) (0, scanner.look) (readNumber size scanner) := by
  suffices read : ∀ (codes : List Code) (value : Int) (scanner : Scanner),
      scanner.rest.takeWhile Code.isDigit = codes →
      Repeats (Attempt.turn (digitTurn size)) (value, scanner)
        (readDigits size codes value scanner) from read _ 0 scanner.look rfl
  intro codes
  induction codes with
  | nil =>
      intro value scanner ahead
      have stopped := stops_of_takeWhile_nil (by decide) ahead
      exact Attempt.repeats_value (by rw [digitTurn_apply, stopped]; rfl)
  | cons code codes inductionHypothesis =>
      intro value scanner ahead
      obtain ⟨rfl, digit, rest⟩ := keeps_of_takeWhile_cons ahead
      have taken := digitTurn_apply size value scanner
      rw [if_pos digit] at taken
      rw [readDigits, Attempt.bind_apply, Attempt.ofExcept_apply]
      cases fits : size.checked (10 * value + scanner.current.digitValue) with
      | error fault =>
          rw [fits] at taken
          exact Attempt.repeats_fault taken
      | ok next =>
          rw [fits] at taken
          exact Attempt.repeats_next taken (inductionHypothesis next (scanner.pass 1) rest)

theorem repeats_lineNumber (scanner : Scanner) :
    let digits := scanner.rest.takeWhile Code.isDigit
    Repeats lineNumberTurn (0, 0, scanner)
      (EditLine.wrappedNumber digits, digits.length, scanner.pass digits.length) := by
  suffices read : ∀ (codes : List Code) (number count : Nat) (scanner : Scanner),
      scanner.rest.takeWhile Code.isDigit = codes →
      Repeats lineNumberTurn (number, count, scanner)
        (codes.foldl (fun number digit => (10 * number + digit.digitValue) % 65536) number,
          count + codes.length, scanner.pass codes.length) by
    have whole := read _ 0 0 scanner rfl
    rwa [Nat.zero_add] at whole
  intro codes
  induction codes with
  | nil =>
      intro number count scanner ahead
      have stopped := stops_of_takeWhile_nil (by decide) ahead
      exact .done (if_neg (by rw [stopped]; decide))
  | cons code codes inductionHypothesis =>
      intro number count scanner ahead
      obtain ⟨rfl, digit, rest⟩ := keeps_of_takeWhile_cons ahead
      have further := inductionHypothesis
        ((10 * number + scanner.current.digitValue) % 65536) (count + 1) (scanner.pass 1) rest
      rw [pass_pass, Nat.add_assoc, Nat.add_comm 1] at further
      exact .again (if_pos digit) further

theorem repeats_nameAhead (scanner : Scanner) :
    Repeats (nameTurn scanner) 1 scanner.nameAhead.2 := by
  suffices counted : ∀ (codes : List Code) (length : Nat),
      (scanner.pass length).rest.takeWhile Code.isNameCode = codes →
      Repeats (nameTurn scanner) length (length + codes.length) by
    refine counted _ 1 ?_
    rw [rest_pass, List.drop_one]
  intro codes
  induction codes with
  | nil =>
      intro length ahead
      have stopped := stops_of_takeWhile_nil (by decide) ahead
      exact .done (if_neg (by rw [stopped]; decide))
  | cons code codes inductionHypothesis =>
      intro length ahead
      obtain ⟨rfl, named, rest⟩ := keeps_of_takeWhile_cons ahead
      rw [pass_pass] at rest
      have further := inductionHypothesis (length + 1) rest
      rw [Nat.add_assoc, Nat.add_comm 1] at further
      exact .again (if_pos named) further

theorem textTurn_apply (text : List Code) (scanner : Scanner) :
    textTurn text scanner =
      if scanner.current = Code.newline then (.error .syntaxError, scanner)
      else if scanner.current = Code.quote then (.ok (.inr text), scanner.advance)
      else (.ok (.inl (text ++ [scanner.current])), scanner.pass 1) := by
  rw [textTurn, Attempt.bind_apply, Attempt.get_apply]
  dsimp only
  split
  · rfl
  · split <;> rfl

theorem repeats_readText (scanner : Scanner) :
    Repeats (Attempt.turn textTurn) ([], scanner.pass 1) (readText scanner) := by
  suffices read : ∀ (codes text : List Code) (scanner : Scanner),
      scanner.rest.takeWhile (fun code => code != Code.quote && code != Code.newline) = codes →
      Repeats (Attempt.turn textTurn) (text, scanner)
        (if (scanner.pass codes.length).current = Code.quote then
          (Except.ok (text ++ codes), (scanner.pass codes.length).advance)
        else (Except.error .syntaxError, scanner.pass codes.length)) by
    have whole := read _ [] (scanner.pass 1) rfl
    rw [pass_pass, rest_pass, List.drop_one] at whole
    rw [readText, Attempt.bind_apply, Attempt.get_apply]
    dsimp only
    rw [Attempt.bind_apply, Attempt.set_apply]
    dsimp only
    split at whole
    next closed =>
      rw [if_pos closed]
      exact whole
    next unclosed =>
      rw [if_neg unclosed]
      exact whole
  intro codes
  induction codes with
  | nil =>
      intro text scanner ahead
      have stopped := stops_of_takeWhile_nil (by decide) ahead
      have taken := textTurn_apply text scanner
      change Repeats _ _ (if scanner.current = Code.quote then
        (Except.ok (text ++ []), scanner.advance) else (Except.error Fault.syntaxError, scanner))
      by_cases closed : scanner.current = Code.quote
      · rw [if_neg (by rw [closed]; decide), if_pos closed] at taken
        rw [if_pos closed, List.append_nil]
        exact Attempt.repeats_value taken
      · have ended : scanner.current = Code.newline := by simpa [closed] using stopped
        rw [if_pos ended] at taken
        rw [if_neg closed]
        exact Attempt.repeats_fault taken
  | cons code codes inductionHypothesis =>
      intro text scanner ahead
      obtain ⟨rfl, more, rest⟩ := keeps_of_takeWhile_cons ahead
      simp only [Bool.and_eq_true, bne_iff_ne, ne_eq] at more
      have taken := textTurn_apply text scanner
      rw [if_neg more.2, if_neg more.1] at taken
      have further := inductionHypothesis (text ++ [scanner.current]) (scanner.pass 1) rest
      rw [pass_pass, Nat.add_comm, List.append_assoc, List.singleton_append] at further
      exact Attempt.repeats_next taken further

/-! ## All of them -/

/-- Whatever a scanner passes over, it passes over code by code, and comes to an end with it. -/
structure Ends (size : WordSize) (scanner : Scanner) : Prop where
  spaces : Repeats spaceTurn scanner scanner.skipSpaces
  skip : ∀ count, Repeats skipTurn (count, scanner) (scanner.skip count)
  toEnd : Repeats endTurn scanner scanner.skipToEnd
  number : Repeats (Attempt.turn (digitTurn size)) (0, scanner.look) (readNumber size scanner)
  lineNumber :
    let digits := scanner.rest.takeWhile Code.isDigit
    Repeats lineNumberTurn (0, 0, scanner)
      (EditLine.wrappedNumber digits, digits.length, scanner.pass digits.length)
  name : Repeats (nameTurn scanner) 1 scanner.nameAhead.2
  text : Repeats (Attempt.turn textTurn) ([], scanner.pass 1) (readText scanner)

theorem ends (size : WordSize) (scanner : Scanner) : scanner.Ends size where
  spaces := repeats_skipSpaces scanner
  skip := repeats_skip scanner
  toEnd := repeats_skipToEnd scanner
  number := repeats_readNumber size scanner
  lineNumber := repeats_lineNumber scanner
  name := repeats_nameAhead scanner
  text := repeats_readText scanner

end Scanner
end HomeBasic
