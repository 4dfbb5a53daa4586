import HomeBasic.Proofs.Attempt.Rules
import HomeBasic.Scanner

/-!
# How far a scanner moves

A scanner only moves on, and never past the end of its line: what it has passed
over since an earlier time are codes of the line (`Follows`). So the codes left on
the line measure how far it has still to go.

Main statements: every step of the scanner moves it so (`follows_look`,
`follows_advance`, `readNumber_follows`, …), and reading something there takes up a
code at least.
-/

namespace HomeBasic
namespace Scanner

/-! ## Codes left on a line -/

theorem length_takeWhile_drop {codes : List Code} {keep : Code → Bool} {count : Nat}
    (inside : count ≤ (codes.takeWhile keep).length) :
    ((codes.drop count).takeWhile keep).length = (codes.takeWhile keep).length - count := by
  induction count generalizing codes with
  | zero => simp
  | succ count inductionHypothesis =>
      cases codes with
      | nil => simp at inside
      | cons code rest =>
          cases kept : keep code with
          | false => simp [kept] at inside
          | true =>
              simp only [List.takeWhile_cons, kept, if_true, List.length_cons] at inside ⊢
              rw [List.drop_succ_cons, inductionHypothesis (by omega)]
              omega

theorem length_takeWhile_le {codes : List Code} {keep wider : Code → Bool}
    (widens : ∀ code, keep code = true → wider code = true) :
    (codes.takeWhile keep).length ≤ (codes.takeWhile wider).length := by
  induction codes with
  | nil => simp
  | cons code rest inductionHypothesis =>
      cases kept : keep code with
      | false => simp [kept]
      | true => simp [kept, widens code kept, inductionHypothesis]

theorem pass_pass (scanner : Scanner) (first second : Nat) :
    (scanner.pass first).pass second = scanner.pass (first + second) := by
  simp only [pass, List.drop_drop, Nat.add_assoc]

theorem codesLeft_pass {scanner : Scanner} {count : Nat} (inside : count ≤ scanner.codesLeft) :
    (scanner.pass count).codesLeft = scanner.codesLeft - count :=
  length_takeWhile_drop inside

/-- A code that is not the end of the line is one of those left on it. -/
theorem codesLeft_pos {scanner : Scanner} (more : scanner.current ≠ Code.newline) :
    0 < scanner.codesLeft := by
  rcases scanner with ⟨position, codes, watched, glyph, wordExpected⟩
  cases codes with
  | nil => exact absurd rfl more
  | cons code rest =>
      have kept : (code != Code.newline) = true := by simpa [current] using more
      simp [codesLeft, kept]

theorem codesLeft_le_length (scanner : Scanner) : scanner.codesLeft ≤ scanner.rest.length :=
  (List.takeWhile_sublist _).length_le

/-! ## Moving on within a line -/

/-- A scanner was moved on from an earlier place over codes of the line. -/
def Follows (later earlier : Scanner) : Prop :=
  ∃ count ≤ earlier.codesLeft,
    later.position = earlier.position + count ∧ later.rest = earlier.rest.drop count

namespace Follows

variable {later middle earlier scanner : Scanner}

theorem refl (scanner : Scanner) : scanner.Follows scanner :=
  ⟨0, Nat.zero_le _, rfl, rfl⟩

theorem codesLeft_eq {count : Nat} (inside : count ≤ earlier.codesLeft)
    (rest : later.rest = earlier.rest.drop count) :
    later.codesLeft = earlier.codesLeft - count := by
  rw [codesLeft, rest]
  exact length_takeWhile_drop inside

theorem trans (second : later.Follows middle) (first : middle.Follows earlier) :
    later.Follows earlier := by
  obtain ⟨count, inside, position, rest⟩ := first
  obtain ⟨further, insideMiddle, laterPosition, laterRest⟩ := second
  rw [codesLeft_eq inside rest] at insideMiddle
  refine ⟨count + further, by omega, by omega, ?_⟩
  rw [laterRest, rest, List.drop_drop]

/-- No codes come back to the line. -/
theorem codesLeft_le (follows : later.Follows earlier) :
    later.codesLeft ≤ earlier.codesLeft := by
  obtain ⟨count, inside, _, rest⟩ := follows
  rw [codesLeft_eq inside rest]
  exact Nat.sub_le _ _

theorem position_le (follows : later.Follows earlier) : earlier.position ≤ later.position := by
  obtain ⟨count, _, position, _⟩ := follows
  omega

/-- A scanner with fewer codes left is further on. -/
theorem position_lt (follows : later.Follows earlier)
    (fewer : later.codesLeft < earlier.codesLeft) :
    earlier.position < later.position := by
  obtain ⟨count, inside, position, rest⟩ := follows
  rw [codesLeft_eq inside rest] at fewer
  omega

theorem of_pass {count : Nat} (inside : count ≤ scanner.codesLeft) :
    (scanner.pass count).Follows scanner :=
  ⟨count, inside, rfl, rfl⟩

end Follows

/-! ## Steps -/

variable (scanner : Scanner)

theorem follows_noteCursor : scanner.noteCursor.Follows scanner :=
  ⟨0, Nat.zero_le _, by simp, by simp⟩

theorem follows_look : scanner.look.Follows scanner := by
  have spaces : ∀ code : Code, (code == Code.space) = true → (code != Code.newline) = true := by
    intro code blank
    rw [eq_of_beq blank]
    decide
  exact (follows_noteCursor _).trans (.of_pass (length_takeWhile_le spaces))

theorem follows_advance : scanner.advance.Follows scanner :=
  (follows_look _).trans (.of_pass (Nat.min_le_right _ _))

theorem follows_skip (count : Nat) : (scanner.skip count).Follows scanner :=
  .of_pass (Nat.min_le_right _ _)

variable {scanner}

/-- Moving on takes up a code, unless the line ends there. -/
theorem codesLeft_advance_lt (more : scanner.current ≠ Code.newline) :
    scanner.advance.codesLeft < scanner.codesLeft := by
  have left := codesLeft_pos more
  have passed : (scanner.pass (min 1 scanner.codesLeft)).codesLeft =
      scanner.codesLeft - min 1 scanner.codesLeft := codesLeft_pass (Nat.min_le_right _ _)
  have looked := (follows_look (scanner.pass (min 1 scanner.codesLeft))).codesLeft_le
  rw [advance]
  omega

/-- A code other than a space is looked at where it stands. -/
theorem look_current {scanner : Scanner} (solid : scanner.current ≠ Code.space) :
    scanner.look.current = scanner.current := by
  rw [current, look_rest_eq_drop]
  rcases scanner with ⟨position, codes, watched, glyph, wordExpected⟩
  cases codes with
  | nil => rfl
  | cons code rest =>
      have kept : (code == Code.space) = false := by simpa [current] using solid
      simp [current, kept]

/-- There is nothing to pass over in front of a code other than a space. -/
theorem skipSpaces_of_solid {scanner : Scanner} (solid : scanner.current ≠ Code.space) :
    scanner.skipSpaces = scanner := by
  rcases scanner with ⟨position, codes, watched, glyph, wordExpected⟩
  cases codes with
  | nil => rfl
  | cons code rest =>
      have kept : (code == Code.space) = false := by simpa [current] using solid
      simp [skipSpaces, pass, kept]

theorem codesLeft_skip_lt {count : Nat} (some : 0 < count)
    (more : scanner.current ≠ Code.newline) :
    (scanner.skip count).codesLeft < scanner.codesLeft := by
  have left := codesLeft_pos more
  rw [skip, codesLeft_pass (Nat.min_le_right _ _)]
  omega

/-! ## Reading -/

/-- Reading moves the scanner on, and takes up a code if it ends well. -/
def Reads {α : Type} (step : Attempt Scanner α) (scanner : Scanner) : Prop :=
  Attempt.Meets
    (fun _ later => later.Follows scanner ∧ later.codesLeft < scanner.codesLeft)
    (fun _ later => later.Follows scanner)
    (step scanner)

theorem reads_expect {code : Code} (inLine : code ≠ Code.newline) (scanner : Scanner) :
    Reads (expect code) scanner := by
  simp only [Reads, expect, Attempt.bind_apply, Attempt.modify_apply, Attempt.get_apply]
  have looked := follows_look scanner
  split
  next found =>
    have further := codesLeft_advance_lt (found ▸ inLine)
    exact ⟨(follows_advance _).trans looked, Nat.lt_of_lt_of_le further looked.codesLeft_le⟩
  next => exact looked

/-- Reading digits passes over no more codes than there are digits. -/
theorem readDigits_follows (size : WordSize) (digits : List Code) (value : Int)
    (scanner : Scanner) (inside : digits.length ≤ scanner.codesLeft) :
    Attempt.Meets
      (fun _ later => later.Follows scanner ∧
        later.codesLeft + digits.length = scanner.codesLeft)
      (fun _ later => later.Follows scanner)
      (readDigits size digits value scanner) := by
  induction digits generalizing value scanner with
  | nil => exact ⟨.refl scanner, rfl⟩
  | cons digit digits inductionHypothesis =>
      simp only [readDigits, Attempt.bind_apply, Attempt.ofExcept_apply, Attempt.modify_apply]
      cases size.checked (10 * value + digit.digitValue) with
      | error fault => exact .refl scanner
      | ok next =>
          dsimp only
          rw [List.length_cons] at inside ⊢
          have passed : (scanner.pass 1).Follows scanner := .of_pass (by omega)
          have left : (scanner.pass 1).codesLeft = scanner.codesLeft - 1 :=
            codesLeft_pass (by omega)
          have others := inductionHypothesis next (scanner.pass 1) (by omega)
          generalize readDigits size digits next (scanner.pass 1) = outcome at others ⊢
          rcases outcome with ⟨fault | value, later⟩
          · exact others.trans passed
          · exact ⟨others.1.trans passed, by have := others.2; omega⟩

theorem digit_onLine (code : Code) (digit : code.isDigit = true) :
    (code != Code.newline) = true := by
  by_cases ending : code = Code.newline
  · rw [ending] at digit
    exact absurd digit (by decide)
  · simpa using ending

theorem reads_readNumber (size : WordSize) {scanner : Scanner}
    (digit : scanner.look.current.isDigit = true) : Reads (readNumber size) scanner := by
  simp only [Reads, readNumber, Attempt.bind_apply, Attempt.modify_apply, Attempt.get_apply]
  have looked := follows_look scanner
  generalize scanner.look = start at looked digit ⊢
  have inside : (start.rest.takeWhile Code.isDigit).length ≤ start.codesLeft :=
    length_takeWhile_le digit_onLine
  have some : 0 < (start.rest.takeWhile Code.isDigit).length := by
    rcases start with ⟨position, codes, watched, glyph, wordExpected⟩
    cases codes with
    | nil => exact absurd (show Code.newline.isDigit = true from digit) (by decide)
    | cons code rest =>
        have kept : code.isDigit = true := digit
        simp [kept]
  have read := readDigits_follows size _ 0 start inside
  generalize readDigits size _ 0 start = outcome at read ⊢
  have bound := looked.codesLeft_le
  rcases outcome with ⟨fault | value, later⟩
  · exact read.trans looked
  · exact ⟨read.1.trans looked, by have := read.2; omega⟩

/-- A text, from its opening quote on, is on the line. -/
theorem length_text_le {scanner : Scanner} (opening : scanner.current = Code.quote) :
    1 + (scanner.rest.tail.takeWhile fun code =>
      code != Code.quote && code != Code.newline).length ≤ scanner.codesLeft := by
  rcases scanner with ⟨position, codes, watched, glyph, wordExpected⟩
  cases codes with
  | nil => exact absurd (show Code.newline = Code.quote from opening) (by decide)
  | cons code rest =>
      obtain rfl : code = Code.quote := opening
      have shorter :
          (rest.takeWhile fun code => code != Code.quote && code != Code.newline).length ≤
            (rest.takeWhile fun code => code != Code.newline).length :=
        length_takeWhile_le (by simp)
      have kept : (Code.quote != Code.newline) = true := by decide
      simp only [codesLeft, List.tail_cons, List.takeWhile_cons, kept, if_true, List.length_cons]
      omega

theorem reads_readText {scanner : Scanner} (opening : scanner.current = Code.quote) :
    Reads readText scanner := by
  have inside := length_text_le opening
  have passed := Follows.of_pass inside
  simp only [Reads, readText, Attempt.bind_apply, Attempt.get_apply, Attempt.set_apply]
  have left := codesLeft_pass inside
  split
  next closed =>
    have further := codesLeft_advance_lt (by rw [closed]; decide)
    exact ⟨(follows_advance _).trans passed, Nat.lt_of_lt_of_le further passed.codesLeft_le⟩
  next => exact passed

theorem readName_apply (length : Nat) (scanner : Scanner) :
    readName length scanner =
      if maxNameLength < length then (.error .syntaxError, scanner)
      else (.ok (scanner.rest.take length), scanner) := by
  simp only [readName]
  split <;> rfl

end Scanner
end HomeBasic
