import HomeBasic.Proofs.Attempt.Mirrored
import HomeBasic.Proofs.Line.Pieces
import HomeBasic.Proofs.Scanner.Line

/-!
# Scanners that read the same codes

Two scanners read the same codes, up to where the line of the first one ends; the line
of the second may go on there with a comma, outside of quotes. Neither the place of a line
nor what follows it makes a difference to what is read there, so the scanners stay twins.
What else they have in common is told by their `Course`: over the same bytes they are level,
and over an edit line with the same cursor they are equal.

Main statements: twins stay twins where they look, pass and advance (`Twins.look`,
`Twins.pass`, `Twins.advance`, …), and read the same numbers, texts and names
(`Twins.readNumber`, `Twins.readText`, `Twins.nameAhead`).
-/

namespace HomeBasic
namespace Scanner

open Attempt (Mirrored)

/-- What two scanners keep to: what they have in common, which codes they read, what only
the second one finds behind them, and where their lines end. -/
structure Course where
  equal : Prop
  level : Prop
  /-- There may be commas that separate. -/
  commas : Bool
  /-- The last quote may be left open. -/
  loose : Bool
  after : List Code
  firstEnd : Nat
  secondEnd : Nat
  cut : after = [] ∨ commas = false ∧ loose = false ∧ ∃ rest, after = Code.comma :: rest

/-- Two scanners read the same codes. -/
structure Twins (course : Course) (first second : Scanner) : Prop where
  line : second.line = first.line ++ course.after
  tidy : Code.tidy course.commas course.loose false first.line = true
  firstEnd : first.position + first.line.length = course.firstEnd
  secondEnd : second.position + second.line.length = course.secondEnd
  equal : course.equal → second = first
  level : course.level → second.rest = first.rest

variable {course : Course} {scanner first second : Scanner} {count : Nat} {code : Code}

/-- What stops at a comma stops where the codes end that both scanners read. -/
theorem Course.takeWhile_append (course : Course) {keep : Code → Bool}
    (stops : keep Code.comma = false) (codes : List Code) :
    (codes ++ course.after).takeWhile keep = codes.takeWhile keep := by
  rw [List.takeWhile_append]
  split
  next whole =>
    have ends : course.after.takeWhile keep = [] := by
      rcases course.cut with none | ⟨_, _, rest, comma⟩
      · rw [none]
        rfl
      · simp [comma, stops]
    rw [ends, List.append_nil]
    exact ((List.takeWhile_sublist keep).eq_of_length whole).symm
  next => rfl

/-! ## Codes of the line -/

theorem ne_newline_of_mem_line (member : code ∈ scanner.line) :
    code ≠ Code.newline := by
  simpa using List.all_eq_true.mp List.all_takeWhile code member

theorem line_eq_nil (ends : scanner.current = Code.newline) : scanner.line = [] := by
  cases left : scanner.line with
  | nil => rfl
  | cons code codes =>
      rw [current_eq_headD, left] at ends
      exact absurd ends (ne_newline_of_mem_line (by rw [left]; exact .head codes))

/-- A text is read up to the next quote or the end of the line. -/
theorem takeWhile_text {text rest : List Code}
    (opens : scanner.line = Code.quote :: (text ++ rest))
    (plain : ∀ code ∈ text, code ≠ Code.quote) (ends : rest.headD Code.quote = Code.quote) :
    (scanner.rest.tail.takeWhile fun code => code != Code.quote && code != Code.newline) =
      text := by
  have onLine : ∀ code ∈ text, code ≠ Code.newline := fun code member =>
    ne_newline_of_mem_line (show code ∈ scanner.line by simp [opens, member])
  obtain ⟨others, whole, same⟩ := rest_eq_cons opens
  rw [whole, List.tail_cons, ← takeWhile_line (by decide), same,
    List.takeWhile_append_of_pos fun code member => by simp [plain code member, onLine code member]]
  cases rest with
  | nil => simp
  | cons code rest =>
      obtain rfl : code = Code.quote := ends
      simp

theorem readText_closed {text rest : List Code}
    (opens : scanner.line = Code.quote :: (text ++ Code.quote :: rest))
    (plain : ∀ code ∈ text, code ≠ Code.quote) :
    readText scanner = (.ok text, (scanner.pass (1 + text.length + 1)).look) := by
  have inside : 1 + text.length ≤ scanner.line.length := by
    rw [opens, List.length_cons, List.length_append]
    omega
  have closing : (scanner.pass (1 + text.length)).line = Code.quote :: rest := by
    rw [line_pass inside, opens, Nat.add_comm, List.drop_succ_cons, List.drop_left]
  have step : (scanner.pass (1 + text.length)).advance =
      (scanner.pass (1 + text.length + 1)).look := by
    have one : min 1 (scanner.pass (1 + text.length)).codesLeft = 1 := by
      change min 1 (scanner.pass (1 + text.length)).line.length = 1
      rw [closing, List.length_cons]
      omega
    rw [advance, one]
    simp only [pass, List.drop_drop, Nat.add_assoc]
  simp only [readText, Attempt.bind_apply, Attempt.get_apply, Attempt.set_apply,
    takeWhile_text opens plain rfl]
  rw [if_pos (by rw [current_eq_headD, closing]; rfl), Attempt.bind_apply, Attempt.modify_apply,
    step]
  rfl

theorem readText_open {body : List Code}
    (opens : scanner.line = Code.quote :: body) (plain : ∀ code ∈ body, code ≠ Code.quote) :
    readText scanner = (.error .syntaxError, scanner.pass (1 + body.length)) := by
  have inside : 1 + body.length ≤ scanner.line.length := by
    rw [opens, List.length_cons]
    omega
  have ends : (scanner.pass (1 + body.length)).current = Code.newline := by
    rw [current_eq_headD, line_pass inside, opens, Nat.add_comm, List.drop_succ_cons,
      List.drop_length]
    rfl
  have text := takeWhile_text (by rw [List.append_nil]; exact opens) plain rfl
  simp only [readText, Attempt.bind_apply, Attempt.get_apply, Attempt.set_apply, text, ends]
  rfl

/-! ## Names -/

/-- The codes of the name that a line opens with are no quotes. -/
theorem plain_nameAhead {rest : List Code} (opens : scanner.line = code :: rest)
    (solid : code ≠ Code.quote) :
    ∀ other ∈ scanner.line.take scanner.nameAhead.2, other ≠ Code.quote := by
  obtain ⟨others, whole, rfl⟩ := rest_eq_cons opens
  have length : scanner.nameAhead.2 =
      ((others.takeWhile (· != Code.newline)).takeWhile Code.isNameCode).length + 1 := by
    rw [takeWhile_line (by decide), nameAhead, whole, List.tail_cons]
    exact Nat.add_comm _ _
  rw [length, opens, List.take_succ_cons, ← List.prefix_iff_eq_take.mp (List.takeWhile_prefix _)]
  intro other member
  rcases List.mem_cons.mp member with rfl | member
  · exact solid
  · rintro rfl
    have name := List.all_eq_true.mp List.all_takeWhile _ member
    revert name
    decide

/-- Behind the name of a text there is its sign. -/
theorem dollar_of_nameAhead {rest : List Code} (opens : scanner.line = code :: rest)
    (text : scanner.nameAhead.1 = .text ∨ scanner.nameAhead.1 = .textFunction) :
    ∃ behind, scanner.line.drop scanner.nameAhead.2 = Code.dollar :: behind := by
  have more : scanner.current ≠ Code.newline := by
    rw [current_eq_headD, opens]
    exact ne_newline_of_mem_line (show code ∈ scanner.line by simp [opens])
  rw [nameAhead_eq more] at text ⊢
  simp only [nameAhead] at text ⊢
  revert text
  rcases scanner.line.drop (1 + (scanner.line.tail.takeWhile Code.isNameCode).length) with
    _ | ⟨first, _ | ⟨second, further⟩⟩
  · simp
  · dsimp only
    split
    next dollar => exact fun _ => ⟨[], by rw [dollar]⟩
    next =>
      split
      all_goals simp
  · dsimp only
    split
    next dollar => exact fun _ => ⟨second :: further, by rw [dollar]⟩
    next =>
      split
      all_goals simp

/-! ## Twins -/

namespace Twins

theorem length (twins : Twins course first second) :
    second.line.length = first.line.length + course.after.length := by
  rw [twins.line, List.length_append]

/-! ### Moving on -/

theorem pass (twins : Twins course first second) (inside : count ≤ first.line.length)
    (tidy : Code.tidy course.commas course.loose false (first.line.drop count) = true) :
    Twins course (first.pass count) (second.pass count) := by
  have length := twins.length
  have firstEnd := twins.firstEnd
  have secondEnd := twins.secondEnd
  have within : count ≤ second.line.length := by omega
  refine ⟨?_, by rwa [line_pass inside], ?_, ?_, fun equal => by rw [twins.equal equal],
    fun level => by rw [rest_pass, rest_pass, twins.level level]⟩
  · rw [line_pass inside, line_pass within, twins.line,
      List.drop_append_of_le_length inside]
  · rw [line_pass inside, List.length_drop, position_pass]
    omega
  · rw [line_pass within, List.length_drop, position_pass]
    omega

/-- Codes that are passed over leave the rest as tidy, if no quote is among them. -/
theorem pass_plain (twins : Twins course first second) (inside : count ≤ first.line.length)
    (plain : ∀ code ∈ first.line.take count, code ≠ Code.quote) :
    Twins course (first.pass count) (second.pass count) :=
  twins.pass inside (Code.tidy_drop plain twins.tidy)

theorem noteCursor (twins : Twins course first second) :
    Twins course first.noteCursor second.noteCursor := by
  have line (scanner : Scanner) : scanner.noteCursor.line = scanner.line := by
    rw [Scanner.line, rest_noteCursor, Scanner.line]
  refine ⟨by rw [line, line, twins.line], by rw [line]; exact twins.tidy, ?_, ?_,
    fun equal => by rw [twins.equal equal],
    fun level => by rw [rest_noteCursor, rest_noteCursor, twins.level level]⟩
  · rw [line, position_noteCursor]
    exact twins.firstEnd
  · rw [line, position_noteCursor]
    exact twins.secondEnd

theorem takeWhile_rest (twins : Twins course first second) {keep : Code → Bool}
    (stops : keep Code.comma = false) (ends : keep Code.newline = false) :
    second.rest.takeWhile keep = first.rest.takeWhile keep := by
  rw [← takeWhile_line ends second.rest, ← takeWhile_line ends first.rest]
  change second.line.takeWhile keep = first.line.takeWhile keep
  rw [twins.line, course.takeWhile_append stops]

theorem skipSpaces (twins : Twins course first second) :
    Twins course first.skipSpaces second.skipSpaces := by
  unfold Scanner.skipSpaces
  have spaces : first.rest.takeWhile (· == Code.space) = first.line.takeWhile (· == Code.space) :=
    (takeWhile_line (by decide) first.rest).symm
  rw [twins.takeWhile_rest (by decide) (by decide), spaces]
  refine twins.pass_plain (List.takeWhile_sublist _).length_le fun code member => ?_
  rw [← List.prefix_iff_eq_take.mp (List.takeWhile_prefix _)] at member
  have blank : code = Code.space := by
    simpa using List.all_eq_true.mp List.all_takeWhile code member
  rw [blank]
  decide

theorem look (twins : Twins course first second) : Twins course first.look second.look :=
  twins.skipSpaces.noteCursor

/-- Twins see the same code, unless the first one is at the end of its line. -/
theorem current (twins : Twins course first second) (more : first.current ≠ Code.newline) :
    second.current = first.current := by
  obtain ⟨rest, opens⟩ := line_eq_cons rfl more
  rw [current_eq_headD, twins.line, opens]
  rfl

/-- At the end of the line of the first one the second is at the end of its own or at a comma. -/
theorem current_of_end (twins : Twins course first second) (ends : first.line = []) :
    second.current = course.after.headD Code.newline := by
  rw [current_eq_headD, twins.line, ends, List.nil_append]

/-- Where no comma separates and the first one is not at the end of its line, it does not
look at a comma. -/
theorem current_ne_comma (twins : Twins course first second) (single : course.commas = false) :
    first.current ≠ Code.comma := by
  intro comma
  obtain ⟨rest, opens⟩ := line_eq_cons comma (by decide)
  have tidy := twins.tidy
  rw [opens, single] at tidy
  exact Code.head_ne_comma tidy rfl

/-- Codes without a quote are skipped on both sides. -/
theorem skip (twins : Twins course first second) (inside : count ≤ first.line.length)
    (plain : ∀ code ∈ first.line.take count, code ≠ Code.quote) :
    Twins course (first.skip count) (second.skip count) := by
  have length := twins.length
  have firstCount : min count first.codesLeft = count := Nat.min_eq_left inside
  have secondCount : min count second.codesLeft = count :=
    Nat.min_eq_left (Nat.le_trans inside (by change _ ≤ second.line.length; omega))
  rw [Scanner.skip, Scanner.skip, firstCount, secondCount]
  exact twins.pass_plain inside plain

theorem skip_one (twins : Twins course first second) (more : first.current ≠ Code.newline)
    (solid : first.current ≠ Code.quote) : Twins course (first.skip 1) (second.skip 1) := by
  obtain ⟨rest, opens⟩ := line_eq_cons rfl more
  refine twins.skip (by rw [opens]; exact Nat.le_add_left 1 _) fun code member => ?_
  rw [opens, List.take_one, List.head?_cons, Option.toList_some, List.mem_singleton] at member
  rwa [member]

theorem advance (twins : Twins course first second) (more : first.current ≠ Code.newline)
    (solid : first.current ≠ Code.quote) : Twins course first.advance second.advance :=
  (twins.skip_one more solid).look

/-! ### Reading -/

theorem mirrored_readDigits (size : WordSize) (digits : List Code) (value : Int)
    (plain : ∀ code ∈ digits, code ≠ Code.quote) :
    Mirrored (fun first second => Twins course first second ∧ digits <+: first.line)
      (readDigits size digits value) (readDigits size digits value) (Twins course) := by
  induction digits generalizing value with
  | nil => exact fun _ _ both => ⟨rfl, both.1⟩
  | cons digit digits inductionHypothesis =>
      rintro first second ⟨twins, rest, opens⟩
      simp only [readDigits, Attempt.bind_apply, Attempt.ofExcept_apply, Attempt.modify_apply]
      cases size.checked (10 * value + digit.digitValue) with
      | error fault => exact ⟨rfl, twins⟩
      | ok next =>
          have inside : 1 ≤ first.line.length := by rw [← opens]; exact Nat.le_add_left 1 _
          have passed : Twins course (first.pass 1) (second.pass 1) := by
            refine twins.pass_plain inside fun code member => plain code ?_
            rw [← opens, List.cons_append, List.take_succ_cons, List.take_zero,
              List.mem_singleton] at member
            simp [member]
          have further : digits <+: (first.pass 1).line :=
            ⟨rest, by rw [line_pass inside, ← opens]; rfl⟩
          exact inductionHypothesis next
            (fun code member => plain code (List.mem_cons_of_mem _ member)) _ _ ⟨passed, further⟩

/-- Twins read the same number. -/
theorem mirrored_readNumber (size : WordSize) :
    Mirrored (Twins course) (readNumber size) (readNumber size) (Twins course) := by
  intro first second twins
  have looked := twins.look
  simp only [readNumber, Attempt.bind_apply, Attempt.modify_apply, Attempt.get_apply,
    looked.takeWhile_rest (show Code.comma.isDigit = false by decide) (by decide)]
  refine mirrored_readDigits size _ 0 (fun code member => ?_) _ _ ⟨looked, ?_⟩
  · rintro rfl
    have digit := List.all_eq_true.mp List.all_takeWhile _ member
    revert digit
    decide
  · rw [← takeWhile_line (by decide) first.look.rest]
    exact List.takeWhile_prefix _

/-- Twins read the same text. -/
theorem mirrored_readText :
    Mirrored (fun first second => Twins course first second ∧ first.current = Code.quote)
      readText readText (Twins course) := by
  rintro first second ⟨twins, opening⟩
  obtain ⟨body, opens⟩ := line_eq_cons opening (by decide)
  have tidy : Code.tidy course.commas course.loose true body = true := by
    have tidy := twins.tidy
    rw [opens, Code.tidy, Bool.and_eq_true] at tidy
    exact tidy.2
  have other := twins.line
  rw [opens, List.cons_append] at other
  by_cases closed : Code.quote ∈ body
  · obtain ⟨text, rest, rfl, fresh⟩ := List.eq_append_cons_of_mem closed
    have plain : ∀ code ∈ text, code ≠ Code.quote := fun code member same => fresh (same ▸ member)
    rw [List.append_assoc, List.cons_append] at other
    rw [readText_closed opens plain, readText_closed other plain]
    refine ⟨rfl, (twins.pass ?_ ?_).look⟩
    · rw [opens, List.length_cons, List.length_append, List.length_cons]
      omega
    · have left : first.line.drop (1 + text.length + 1) = rest := by
        rw [opens, Nat.add_comm 1, List.drop_succ_cons, List.drop_append]
        simp
      rw [left]
      exact Code.tidy_behind_text plain tidy
  · have plain : ∀ code ∈ body, code ≠ Code.quote := fun code member same => closed (same ▸ member)
    have whole : course.after = [] := by
      rcases course.cut with none | ⟨_, loose, _⟩
      · exact none
      · rw [loose] at tidy
        obtain ⟨text, rest, rfl, _⟩ := Code.exists_quote_of_tidy tidy
        exact absurd (by simp) closed
    rw [whole, List.append_nil] at other
    rw [readText_open opens plain, readText_open other plain]
    refine ⟨rfl, twins.pass ?_ ?_⟩
    · rw [opens, List.length_cons]
      omega
    · rw [opens, Nat.add_comm, List.drop_succ_cons, List.drop_length]
      rfl

/-- Twins have the same name ahead, of the same use. -/
theorem nameAhead (twins : Twins course first second) (more : first.current ≠ Code.newline) :
    second.nameAhead = first.nameAhead := by
  have others : second.current ≠ Code.newline := by rwa [twins.current more]
  obtain ⟨rest, opens⟩ := line_eq_cons rfl more
  have length : ((rest ++ course.after).takeWhile Code.isNameCode).length =
      (rest.takeWhile Code.isNameCode).length := by
    rw [course.takeWhile_append (by decide)]
  have inside : (rest.takeWhile Code.isNameCode).length ≤ rest.length :=
    (List.takeWhile_sublist _).length_le
  rw [nameAhead_eq more, nameAhead_eq others, twins.line, opens, List.cons_append]
  simp only [Scanner.nameAhead, List.tail_cons, length, Nat.add_comm 1, List.drop_succ_cons,
    List.drop_append_of_le_length inside, Prod.mk.injEq, and_true]
  rcases course.cut with none | ⟨_, _, tail, comma⟩
  · rw [none, List.append_nil]
  · rw [comma]
    rcases rest.drop (rest.takeWhile Code.isNameCode).length with
      _ | ⟨code, _ | ⟨next, further⟩⟩
    · cases tail <;> rfl
    · rfl
    · rfl

end Twins
end Scanner
end HomeBasic
