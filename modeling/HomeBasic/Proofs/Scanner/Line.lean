import HomeBasic.Proofs.Scanner.Movement

/-!
# The line at a scanner

All that a scanner ever looks at are the codes up to the end of its line (`Scanner.line`).
Two scanners with the same line, wherever they stand, see the same codes and names, and
move on alike (`Scanner.Abreast`).

Main statements: what each step leaves of the line (`line_look`, `line_advance`,
`line_skip`, …), and that reading numbers, texts and names is the same on both sides
(`abreast_readNumber`, `abreast_readText`, `nameAhead_congr`).
-/

namespace HomeBasic
namespace Scanner

open Attempt (Exits Related)

/-- The codes up to the end of the line. -/
def line (scanner : Scanner) : List Code :=
  scanner.rest.takeWhile (· != Code.newline)

variable {scanner first second : Scanner} {bound count : Nat}

/-! ## What is left of the line -/

theorem takeWhile_drop {codes : List Code} {keep : Code → Bool}
    (inside : count ≤ (codes.takeWhile keep).length) :
    (codes.drop count).takeWhile keep = (codes.takeWhile keep).drop count := by
  induction count generalizing codes with
  | zero => rfl
  | succ count inductionHypothesis =>
      cases codes with
      | nil => rfl
      | cons code rest =>
          cases kept : keep code with
          | false => simp [kept] at inside
          | true =>
              simp only [List.takeWhile_cons, kept, if_true, List.length_cons] at inside ⊢
              exact inductionHypothesis (by omega)

theorem line_pass (inside : count ≤ scanner.line.length) :
    (scanner.pass count).line = scanner.line.drop count :=
  takeWhile_drop inside

theorem line_skip (scanner : Scanner) (count : Nat) :
    (scanner.skip count).line = scanner.line.drop count := by
  change (scanner.pass (min count scanner.line.length)).line = _
  rw [line_pass (Nat.min_le_right _ _)]
  rcases Nat.le_total count scanner.line.length with inside | beyond
  · rw [Nat.min_eq_left inside]
  · rw [Nat.min_eq_right beyond, List.drop_length, List.drop_eq_nil_of_le beyond]

theorem line_look (scanner : Scanner) :
    scanner.look.line = scanner.line.dropWhile (· == Code.space) := by
  rw [line, line, look_rest_eq_drop]
  induction scanner.rest with
  | nil => rfl
  | cons code rest inductionHypothesis =>
      by_cases blank : code = Code.space
      · subst blank
        have kept : (Code.space != Code.newline) = true := by decide
        simp only [List.dropWhile_cons, List.takeWhile_cons, kept, beq_self_eq_true, if_true,
          inductionHypothesis]
      · have solid : (code == Code.space) = false := beq_false_of_ne blank
        rw [List.dropWhile_cons_of_neg (by simp [solid])]
        cases kept : code != Code.newline with
        | false => simp [kept]
        | true => simp [kept, solid]

theorem line_advance (scanner : Scanner) :
    scanner.advance.line = (scanner.line.drop 1).dropWhile (· == Code.space) := by
  change (scanner.skip 1).look.line = _
  rw [line_look, line_skip]

theorem current_eq_headD (scanner : Scanner) :
    scanner.current = scanner.line.headD Code.newline := by
  rw [current, line]
  cases scanner.rest with
  | nil => rfl
  | cons code rest =>
      by_cases ends : code = Code.newline
      · simp [ends]
      · have kept : (code != Code.newline) = true := by simpa using ends
        simp [kept]

/-- Codes that do not go on at the end of the line are codes of the line. -/
theorem takeWhile_line {keep : Code → Bool} (stops : keep Code.newline = false)
    (codes : List Code) :
    (codes.takeWhile (· != Code.newline)).takeWhile keep = codes.takeWhile keep := by
  induction codes with
  | nil => rfl
  | cons code rest inductionHypothesis =>
      by_cases ends : code = Code.newline
      · subst ends
        simp [stops]
      · have kept : (code != Code.newline) = true := by simpa using ends
        simp only [List.takeWhile_cons, kept, if_true, inductionHypothesis]

/-- What follows a name is told by the line alone. -/
theorem nameAhead_eq (more : scanner.current ≠ Code.newline) :
    scanner.nameAhead = nameAhead { scanner with rest := scanner.line } := by
  rcases scanner with ⟨position, codes, watched, glyph, wordExpected⟩
  cases codes with
  | nil => exact absurd rfl more
  | cons code rest =>
      have kept : (code != Code.newline) = true := by simpa [current] using more
      have whole : line ⟨position, code :: rest, watched, glyph, wordExpected⟩ =
          code :: rest.takeWhile (· != Code.newline) := by
        simp only [line, List.takeWhile_cons, kept, if_true]
      have name : Code.isNameCode Code.newline = false := rfl
      have behind : (rest.takeWhile (· != Code.newline)).drop
            (rest.takeWhile Code.isNameCode).length =
          (rest.drop (rest.takeWhile Code.isNameCode).length).takeWhile (· != Code.newline) := by
        refine (takeWhile_drop ?_).symm
        rw [← takeWhile_line (by rfl)]
        exact (List.takeWhile_sublist _).length_le
      rw [whole]
      simp only [nameAhead, List.tail_cons, takeWhile_line name, Nat.add_comm 1,
        List.drop_succ_cons, behind]
      rcases rest.drop (rest.takeWhile Code.isNameCode).length with
        _ | ⟨first, _ | ⟨second, further⟩⟩
      · rfl
      · by_cases ends : first = Code.newline
        · subst ends
          rfl
        · have kept : (first != Code.newline) = true := by simpa using ends
          simp only [List.takeWhile_cons, kept, if_true, List.takeWhile_nil]
      · by_cases ends : first = Code.newline
        · subst ends
          rfl
        · have kept : (first != Code.newline) = true := by simpa using ends
          by_cases last : second = Code.newline
          · subst last
            simp only [List.takeWhile_cons, kept, bne_self_eq_false, Bool.false_eq_true,
              if_true, if_false]
            rfl
          · have further : (second != Code.newline) = true := by simpa using last
            simp only [List.takeWhile_cons, kept, further, if_true]

theorem nameAhead_congr (same : second.line = first.line) (more : first.current ≠ Code.newline) :
    second.nameAhead = first.nameAhead := by
  have others : second.current ≠ Code.newline := by
    rw [current_eq_headD, same, ← current_eq_headD]
    exact more
  rw [nameAhead_eq more, nameAhead_eq others, same]
  rfl

/-! ## Scanners with the same line -/

/-- Two scanners have the same line left, of no more than so many codes. -/
structure Abreast (bound : Nat) (first second : Scanner) : Prop where
  line : second.line = first.line
  within : first.line.length ≤ bound

/-- Two scanners have the same line left, which opens with a code. -/
structure Facing (bound : Nat) (code : Code) (first second : Scanner) : Prop
    extends Abreast bound first second where
  current : first.current = code

namespace Abreast

theorem current (abreast : Abreast bound first second) : second.current = first.current := by
  rw [current_eq_headD, current_eq_headD, abreast.line]

theorem look (abreast : Abreast bound first second) :
    Facing bound first.look.current first.look second.look where
  line := by rw [line_look, line_look, abreast.line]
  within := by
    rw [line_look]
    exact Nat.le_trans (List.dropWhile_sublist _).length_le abreast.within
  current := rfl

theorem advance (abreast : Abreast bound first second) :
    Abreast (bound - 1) first.advance second.advance where
  line := by rw [line_advance, line_advance, abreast.line]
  within := by
    rw [line_advance]
    have within := abreast.within
    have shorter := (List.dropWhile_sublist (l := first.line.drop 1) (· == Code.space)).length_le
    rw [List.length_drop] at shorter
    omega

theorem skip (abreast : Abreast bound first second) (count : Nat) :
    Abreast (bound - count) (first.skip count) (second.skip count) where
  line := by rw [line_skip, line_skip, abreast.line]
  within := by
    have within := abreast.within
    rw [line_skip, List.length_drop]
    omega

end Abreast

/-! ## Reading on the same line -/

theorem abreast_expect (code : Code) :
    Related .same (Abreast bound) (expect code) (expect code)
      fun value first other second => value = other ∧ Abreast (bound - 1) first second := by
  intro first second abreast
  have looked := abreast.look
  simp only [expect, Attempt.bind_apply, Attempt.modify_apply, Attempt.get_apply,
    looked.toAbreast.current]
  split
  · exact ⟨trivial, looked.advance⟩
  · exact .inl rfl

theorem abreast_expectEnd :
    Related .same (Abreast bound) expectEnd expectEnd
      fun value first other second => value = other ∧ Abreast bound first second := by
  intro first second abreast
  have looked := abreast.look
  simp only [expectEnd, Attempt.bind_apply, Attempt.modify_apply, Attempt.get_apply,
    looked.toAbreast.current]
  split
  · exact .inl rfl
  · exact ⟨trivial, looked.toAbreast⟩

/-- Digits of the line are passed over one after the other. -/
theorem abreast_readDigits (size : WordSize) (digits : List Code) (value : Int) :
    Related .same (fun first second => Abreast bound first second ∧
        digits.length ≤ first.line.length)
      (readDigits size digits value) (readDigits size digits value)
      fun number first other second => number = other ∧
        Abreast (bound - digits.length) first second := by
  induction digits generalizing bound value with
  | nil => exact fun _ _ both => ⟨rfl, both.1⟩
  | cons digit digits inductionHypothesis =>
      rintro first second ⟨abreast, inside⟩
      simp only [readDigits, Attempt.bind_apply, Attempt.ofExcept_apply, Attempt.modify_apply]
      cases size.checked (10 * value + digit.digitValue) with
      | error fault => exact .inl rfl
      | ok next =>
          rw [List.length_cons] at inside ⊢
          have within := abreast.within
          have left : (first.pass 1).line = first.line.drop 1 := line_pass (by omega)
          have passed : Abreast (bound - 1) (first.pass 1) (second.pass 1) := by
            refine ⟨?_, ?_⟩
            · rw [left, line_pass (by rw [abreast.line]; omega), abreast.line]
            · rw [left, List.length_drop]
              omega
          have further : digits.length ≤ (first.pass 1).line.length := by
            rw [left, List.length_drop]
            omega
          have bounds : bound - (digits.length + 1) = bound - 1 - digits.length := by omega
          rw [bounds]
          exact inductionHypothesis next _ _ ⟨passed, further⟩

theorem look_line_of_current {code : Code} (looked : scanner.current = code)
    (solid : code ≠ Code.space) : scanner.look.line = scanner.line := by
  rw [line_look]
  rw [current_eq_headD] at looked
  cases left : scanner.line with
  | nil => rfl
  | cons first rest =>
      rw [left] at looked
      obtain rfl : first = code := looked
      exact List.dropWhile_cons_of_neg (by simpa using solid)

/-- A line that opens with a code starts with it. -/
theorem line_eq_cons {code : Code} (looked : scanner.current = code)
    (more : code ≠ Code.newline) : ∃ rest, scanner.line = code :: rest := by
  rw [current_eq_headD] at looked
  cases left : scanner.line with
  | nil =>
      rw [left] at looked
      exact absurd looked.symm more
  | cons first rest =>
      rw [left] at looked
      obtain rfl : first = code := looked
      exact ⟨rest, rfl⟩

theorem rest_eq_cons {code : Code} {rest : List Code} (opens : scanner.line = code :: rest) :
    ∃ others, scanner.rest = code :: others ∧ others.takeWhile (· != Code.newline) = rest := by
  unfold line at opens
  cases whole : scanner.rest with
  | nil =>
      rw [whole] at opens
      cases opens
  | cons first others =>
      rw [whole, List.takeWhile_cons] at opens
      split at opens
      · cases opens
        exact ⟨others, rfl, rfl⟩
      · cases opens

theorem abreast_readNumber (size : WordSize) {code : Code} (digit : code.isDigit = true) :
    Related .same (Facing bound code) (readNumber size) (readNumber size)
      fun number first other second => number = other ∧ Abreast (bound - 1) first second := by
  intro first second facing
  have looked := facing.look
  have ends : Code.isDigit Code.newline = false := rfl
  have digits : ∀ scanner : Scanner, scanner.rest.takeWhile Code.isDigit =
      scanner.line.takeWhile Code.isDigit := fun scanner => (takeWhile_line ends _).symm
  have some : 0 < (first.look.line.takeWhile Code.isDigit).length := by
    have solid : code ≠ Code.space := by
      rintro rfl
      cases digit
    have more : code ≠ Code.newline := by
      rintro rfl
      cases digit
    obtain ⟨rest, opens⟩ := line_eq_cons facing.current more
    rw [look_line_of_current facing.current solid, opens]
    simp [digit]
  have inside : (first.look.line.takeWhile Code.isDigit).length ≤ first.look.line.length :=
    (List.takeWhile_sublist _).length_le
  simp only [readNumber, Attempt.bind_apply, Attempt.modify_apply, Attempt.get_apply, digits,
    looked.line]
  refine (abreast_readDigits size _ 0 first.look second.look ⟨looked.toAbreast, inside⟩).weaken
    (.refl _) fun number other both => ⟨both.1, both.2.line, ?_⟩
  have within := both.2.within
  omega

theorem abreast_readText :
    Related .same (Facing bound Code.quote) readText readText
      fun text first other second => text = other ∧ Abreast (bound - 1) first second := by
  intro first second facing
  have texts : ∀ {scanner : Scanner} {rest : List Code}, scanner.line = Code.quote :: rest →
      (scanner.rest.tail.takeWhile fun code => code != Code.quote && code != Code.newline) =
        rest.takeWhile fun code => code != Code.quote && code != Code.newline := by
    intro scanner rest opens
    obtain ⟨others, whole, same⟩ := rest_eq_cons opens
    rw [whole, ← same, takeWhile_line (by rfl)]
    rfl
  obtain ⟨rest, opens⟩ := line_eq_cons facing.current (by decide)
  have same := facing.line
  have within := facing.within
  have shorter : (rest.takeWhile fun code =>
      code != Code.quote && code != Code.newline).length ≤ rest.length :=
    (List.takeWhile_sublist _).length_le
  simp only [readText, Attempt.bind_apply, Attempt.get_apply, Attempt.set_apply, texts opens,
    texts (same.trans opens)]
  generalize (rest.takeWhile fun code => code != Code.quote && code != Code.newline) = text
    at shorter ⊢
  have passed : Abreast (bound - 1) (first.pass (1 + text.length))
      (second.pass (1 + text.length)) := by
    have inside : 1 + text.length ≤ first.line.length := by
      rw [opens, List.length_cons]
      omega
    refine ⟨?_, ?_⟩
    · rw [line_pass inside, line_pass (by rw [same]; exact inside), same]
    · rw [line_pass inside, List.length_drop]
      omega
  rw [passed.current]
  split
  · exact ⟨rfl, passed.advance.line, Nat.le_trans passed.advance.within (Nat.sub_le _ _)⟩
  · exact .inl rfl

/-- The name ahead is part of the line. -/
theorem nameAhead_le (more : scanner.current ≠ Code.newline) :
    scanner.nameAhead.2 ≤ scanner.line.length := by
  obtain ⟨rest, opens⟩ := line_eq_cons rfl more
  obtain ⟨others, whole, same⟩ := rest_eq_cons opens
  have name : others.takeWhile Code.isNameCode = rest.takeWhile Code.isNameCode := by
    rw [← same, takeWhile_line (by rfl)]
  have shorter : (rest.takeWhile Code.isNameCode).length ≤ rest.length :=
    (List.takeWhile_sublist _).length_le
  simp only [nameAhead, whole, opens, List.tail_cons, name, List.length_cons]
  omega

theorem take_nameAhead (more : scanner.current ≠ Code.newline) :
    scanner.rest.take scanner.nameAhead.2 = scanner.line.take scanner.nameAhead.2 := by
  have whole : scanner.rest = scanner.line ++ scanner.rest.dropWhile (· != Code.newline) :=
    List.takeWhile_append_dropWhile.symm
  rw [whole, List.take_append_of_le_length (nameAhead_le more)]

end Scanner
end HomeBasic
