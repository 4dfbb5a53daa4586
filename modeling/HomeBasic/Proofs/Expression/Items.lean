import HomeBasic.Proofs.Expression.Mirrored
import HomeBasic.Proofs.Expression.Modes
import HomeBasic.Proofs.Line.Checking
import HomeBasic.Proofs.Line.Items

/-!
# Evaluating an item of a list

An item that is evaluated in its list comes to what it comes to alone (`matches_item`): the
same value or fault, and the same console. The scanner in the list stops at the comma, or
at the end of the line, exactly if the one that has only the item comes to its end.

Main statements: `matches_item`, and that an item that checks alone is read to its end when
it is executed alone (`line_eq_nil_of_checks`).
-/

namespace HomeBasic

/-! ## Looking -/

namespace Scanner

variable {scanner : Scanner}

theorem look_look (scanner : Scanner) : scanner.look.look = scanner.look := by
  have solid : scanner.look.rest.takeWhile (· == Code.space) = [] := by
    rw [look_rest_eq_drop]
    induction scanner.rest with
    | nil => rfl
    | cons code rest inductionHypothesis =>
        rw [List.dropWhile_cons]
        split
        · exact inductionHypothesis
        next other => rw [List.takeWhile_cons, if_neg other]
  have skipped : scanner.look.skipSpaces = scanner.look := by
    rw [skipSpaces, solid]
    rfl
  have noted : ∀ scanner : Scanner, scanner.noteCursor.noteCursor = scanner.noteCursor := by
    rintro ⟨position, rest, _ | cursor, _ | glyph, wordExpected⟩
    · rfl
    · rfl
    · by_cases past : cursor ≤ position
      · simp [noteCursor, past]
      · simp [noteCursor, past]
    · rfl
  rw [look, skipped]
  exact noted _

/-- A line ends where it ends, however far a scanner has moved. -/
theorem Follows.lineEnd {later earlier : Scanner} (follows : later.Follows earlier) :
    later.position + later.line.length = earlier.position + earlier.line.length := by
  obtain ⟨count, inside, position, rest⟩ := follows
  have left : later.line.length = earlier.line.length - count :=
    Follows.codesLeft_eq inside rest
  have inside : count ≤ earlier.line.length := inside
  omega

theorem line_look_eq_trimmed (scanner : Scanner) : scanner.look.line = Code.trimmed scanner.line :=
  line_look scanner

/-- A course of two scanners of which the first has an item alone, and the second, which was
at a scanner before, has the item and others behind it. -/
structure Course.OfItem (course : Course) (scanner : Scanner) (item : List Code)
    (others : List (List Code)) : Prop where
  single : course.commas = false
  secondEnd : course.secondEnd = scanner.position + scanner.line.length
  opens : Code.trimmed scanner.line = item ++ course.after
  closed : course.after ≠ [] → Code.tidy false false false item = true
  others : others = match course.after with
    | [] => []
    | _ :: rest => Code.items rest

/-- The first item at a scanner has a course with the scanner that has it alone. -/
theorem exists_course {item : List Code} {others : List (List Code)}
    (listed : Code.items scanner.line = item :: others) :
    ∃ course : Course, course.OfItem scanner item others ∧
      Twins course (.ofBytes item 0) scanner.look := by
  have oneLine : Code.newline ∉ Code.trimmed scanner.line := fun member =>
    ne_newline_of_mem_line ((Code.trimmed_suffix _).subset member) rfl
  have ends := (follows_look scanner).lineEnd
  rcases Code.items_split scanner.line with ⟨last, whole⟩ | ⟨first, rest, opens, closed, more⟩
  · obtain ⟨rfl, rfl⟩ := List.cons.inj (listed.symm.trans whole)
    have line : (ofBytes (Code.trimmed scanner.line) 0).line = Code.trimmed scanner.line :=
      line_ofBytes oneLine
    refine ⟨⟨False, False, false, true, [], (Code.trimmed scanner.line).length, _, .inl rfl⟩,
      ⟨rfl, rfl, (List.append_nil _).symm, fun more => absurd rfl more, rfl⟩, ?_, ?_, ?_, ends,
      False.elim, False.elim⟩
    · rw [line, line_look_eq_trimmed, List.append_nil]
    · rw [line]
      exact last
    · rw [line]
      exact Nat.zero_add _
  · obtain ⟨rfl, rfl⟩ := List.cons.inj (listed.symm.trans more)
    rw [opens] at oneLine
    have line : (ofBytes item 0).line = item :=
      line_ofBytes fun member => oneLine (List.mem_append_left _ member)
    refine ⟨⟨False, False, false, false, Code.comma :: rest, item.length, _,
      .inr ⟨rfl, rfl, rest, rfl⟩⟩, ⟨rfl, rfl, opens, fun _ => closed, rfl⟩, ?_, ?_, ?_, ends,
      False.elim, False.elim⟩
    · rw [line, line_look_eq_trimmed, opens]
    · rw [line]
      exact closed
    · rw [line]
      exact Nat.zero_add _

namespace Twins

variable {course : Course} {first second : Scanner}

/-- In its list an item is followed by a comma where it has come to its end and others follow. -/
theorem current_eq_comma_iff (twins : Twins course first second)
    (single : course.commas = false) :
    second.current = Code.comma ↔ first.line = [] ∧ course.after ≠ [] := by
  by_cases ends : first.current = Code.newline
  · have whole := line_eq_nil ends
    rw [twins.current_of_end whole]
    rcases course.cut with none | ⟨_, _, rest, comma⟩
    · simp [none, Code.comma, Code.newline]
    · simp [comma, whole]
  · have more : first.line ≠ [] := by
      obtain ⟨rest, opens⟩ := line_eq_cons rfl ends
      simp [opens]
    rw [twins.current ends]
    exact iff_of_false (twins.current_ne_comma single) fun both => more both.1

/-- In its list an item is followed by nothing where it has come to its end and is the last. -/
theorem current_eq_newline_iff (twins : Twins course first second) :
    second.current = Code.newline ↔ first.line = [] ∧ course.after = [] := by
  by_cases ends : first.current = Code.newline
  · have whole := line_eq_nil ends
    rw [twins.current_of_end whole]
    rcases course.cut with none | ⟨_, _, rest, comma⟩
    · simp [none, whole]
    · simp [comma, Code.comma, Code.newline]
  · have more : first.line ≠ [] := by
      obtain ⟨rest, opens⟩ := line_eq_cons rfl ends
      simp [opens]
    rw [twins.current ends]
    exact iff_of_false ends fun both => more both.1

end Twins

namespace Course.OfItem

variable {course : Course} {scanner first second : Scanner} {item : List Code}
  {others : List (List Code)} (ofItem : course.OfItem scanner item others)
  (twins : Twins course first second)
include ofItem twins

/-- At a comma the item has come to its end, and the others are listed behind it. -/
theorem of_comma (comma : second.current = Code.comma) :
    first.line = [] ∧ ∃ rest, Code.trimmed scanner.line = item ++ Code.comma :: rest ∧
      Code.tidy false false false item = true ∧ Code.items rest = others ∧
      second.advance.line = Code.trimmed rest := by
  obtain ⟨whole, more⟩ := (twins.current_eq_comma_iff ofItem.single).mp comma
  obtain ⟨_, _, rest, after⟩ := course.cut.resolve_left more
  have listed := ofItem.others
  have opens := ofItem.opens
  have line := twins.line
  rw [after] at listed opens
  rw [whole, after, List.nil_append] at line
  refine ⟨whole, rest, opens, ofItem.closed more, listed.symm, ?_⟩
  rw [line_advance, line]
  rfl

/-- At the end of the line the item has come to its end and is the last. -/
theorem of_newline (ends : second.current = Code.newline) : first.line = [] ∧ others = [] := by
  obtain ⟨whole, none⟩ := twins.current_eq_newline_iff.mp ends
  exact ⟨whole, by rw [ofItem.others, none]⟩

/-- An item that has come to its end with no comma behind it is the last. -/
theorem others_eq_nil (whole : first.line = []) (last : second.current ≠ Code.comma) :
    others = [] := by
  have none : course.after = [] := by
    by_contra more
    exact last ((twins.current_eq_comma_iff ofItem.single).mpr ⟨whole, more⟩)
  rw [ofItem.others, none]

theorem lineEnd_advance : second.advance.position + second.advance.line.length =
    scanner.position + scanner.line.length := by
  rw [(follows_advance second).lineEnd, ← ofItem.secondEnd]
  exact twins.secondEnd

end Course.OfItem
end Scanner

/-- A desk once its scanner has looked. -/
def Desk.looked {H : Type} (desk : Desk H) : Desk H :=
  { desk with scanner := desk.scanner.look }

namespace Expression

open Attempt (Matches Mirrored)
open Desk (Twins)
open Scanner (Course)

variable {H K : Type} [Console H] [Console K]

section
variable (environment : Environment) (mode : Mode)

theorem alike_refl : Alike (H := H) Eq environment environment mode where
  config := rfl
  fetched _ _ _ := rfl
  reply function argument := Attempt.mirrored_refl (reply environment mode function argument)
  fold _ _ := rfl

/-- Any numbers of turns above that of the codes left on the line will do. -/
theorem operations_turns (levels : Nat) {turns others : Nat} (desk : Desk H)
    (enough : desk.scanner.line.length < turns) (suffice : desk.scanner.line.length < others) :
    operations environment mode (evaluateWithin environment mode levels) others desk =
      operations environment mode (evaluateWithin environment mode levels) turns desk := by
  have alike : Alike (H := H) Eq environment environment mode := alike_refl environment mode
  let course : Course := ⟨True, True, true, true, [],
    desk.scanner.position + desk.scanner.line.length,
    desk.scanner.position + desk.scanner.line.length, .inl rfl⟩
  have scanner : Scanner.Twins course desk.scanner desk.scanner :=
    ⟨(List.append_nil _).symm, Code.tidy_anything, rfl, rfl, fun _ => rfl, fun _ => rfl⟩
  obtain ⟨result, twins⟩ := matches_operations alike
    (mirrored_evaluateWithin alike levels) ⟨scanner, rfl, rfl⟩ enough suffice
  generalize operations environment mode (evaluateWithin environment mode levels) turns desk =
    outcome at result twins ⊢
  generalize operations environment mode (evaluateWithin environment mode levels) others desk =
    arrival at result twins ⊢
  obtain ⟨_, scanner, calculator, console⟩ := outcome
  obtain ⟨_, scanner', calculator', console'⟩ := arrival
  obtain rfl : scanner' = scanner := twins.scanner.equal trivial
  obtain rfl : calculator' = calculator := twins.calculator
  obtain rfl : console = console' := twins.console
  exact congrArg (·, _) result

/-- An evaluation begins with a look, so it does no harm to look before it. -/
theorem matches_looked (levels : Nat) (desk : Desk H) :
    Matches (fun reached arrived => arrived.looked = reached.looked)
      (evaluateWithin environment mode levels desk)
      (evaluateWithin environment mode levels desk.looked) := by
  have idle (desk : Desk H) : desk.looked.looked = desk.looked := by
    rw [Desk.looked, Desk.looked, Scanner.look_look]
  cases levels with
  | zero => exact ⟨rfl, idle desk⟩
  | succ levels =>
      have begun (turns : Nat) (desk : Desk H) :
          operations environment mode (evaluateWithin environment mode levels) (turns + 1)
              desk.looked =
            operations environment mode (evaluateWithin environment mode levels) (turns + 1)
              desk := by
        rw [operations, Attempt.bind_apply, Attempt.bind_apply, Desk.look_apply, Desk.look_apply]
        simp only [Desk.looked, Scanner.look_look]
      unfold evaluateWithin Desk.restoring
      simp only [Attempt.bind_apply, Desk.push_apply, Attempt.get_apply]
      have stack : desk.looked.calculator = desk.calculator := rfl
      rw [stack]
      cases desk.calculator.push .sentinel with
      | error fault =>
          have failed := idle
            { desk with calculator := desk.calculator.truncate desk.calculator.length }
          exact ⟨rfl, failed⟩
      | ok calculator =>
          have turns : desk.scanner.look.line.length ≤ desk.scanner.rest.length :=
            Nat.le_trans (Scanner.follows_look _).codesLeft_le (Scanner.codesLeft_le_length _)
          have others : desk.scanner.look.line.length ≤ desk.scanner.look.rest.length :=
            Scanner.codesLeft_le_length _
          have same := operations_turns environment mode levels
            (Desk.looked { desk with calculator })
            (Nat.lt_succ_of_le turns) (Nat.lt_succ_of_le others)
          have whole := same.trans (begun _ _)
          simp only [Desk.looked] at whole ⊢
          rw [whole]
          exact ⟨rfl, rfl⟩

/-- An item comes to the same in its list and alone. -/
theorem matches_item (levels : Nat) (desk : Desk H) {item : List Code}
    {others : List (List Code)} (listed : Code.items desk.scanner.line = item :: others) :
    ∃ course : Course, course.OfItem desk.scanner item others ∧
      Matches (fun alone reached => Twins course Eq alone.looked reached.looked)
        (evaluateWithin environment mode levels { desk with scanner := .ofBytes item 0 })
        (evaluateWithin environment mode levels desk) := by
  obtain ⟨course, ofItem, scanner⟩ := Scanner.exists_course listed
  have alike : Alike (H := H) Eq environment environment mode := alike_refl environment mode
  obtain ⟨result, twins⟩ := mirrored_evaluateWithin alike levels
    { desk with scanner := .ofBytes item 0 } desk.looked ⟨scanner, rfl, rfl⟩
  obtain ⟨same, looked⟩ := matches_looked environment mode levels desk
  refine ⟨course, ofItem, same.symm.trans result, ?_⟩
  change Twins course Eq (Desk.looked _) (evaluateWithin environment mode levels desk).2.looked
  rw [← looked]
  exact ⟨twins.scanner.look, twins.calculator, twins.console⟩

end

/-! ## Items that check -/

/-- Codes are an expression that checks, and nothing else. -/
def Checks (config : Config) (codes : List Code) : Prop :=
  ∃ value reached, evaluate (.blank config) .check
    (⟨.ofBytes codes 0, .empty config.calculatorDepth, {}⟩ : Desk NoConsole) =
      (.ok value, reached) ∧ reached.scanner.look.line = []

/-- An expression that checks is read to its end when it is executed, if it has a value. -/
theorem line_eq_nil_of_checks {environment : Environment} {codes : List Code} {console : H}
    {value : Value} {reached : Desk H} (checks : Checks environment.config codes)
    (run : evaluate environment .execute
      ⟨.ofBytes codes 0, .empty environment.config.calculatorDepth, console⟩ =
        (.ok value, reached)) :
    reached.scanner.look.line = [] := by
  obtain ⟨checked, found, check, whole⟩ := checks
  have parallel : Parallel (typing NoConsole H environment) (.blank environment.config)
      environment .check .execute := parallel_modes rfl
  have together := keeps_evaluateWithin parallel environment.config.maxNesting
    ⟨.ofBytes codes 0, .empty environment.config.calculatorDepth, {}⟩
    ⟨.ofBytes codes 0, .empty environment.config.calculatorDepth, console⟩
    ⟨rfl, rfl, .nil, trivial⟩
  have first : evaluateWithin (.blank environment.config) .check environment.config.maxNesting
      (⟨.ofBytes codes 0, .empty environment.config.calculatorDepth, {}⟩ : Desk NoConsole) =
        (.ok checked, found) := check
  have second : evaluateWithin environment .execute environment.config.maxNesting
      (⟨.ofBytes codes 0, .empty environment.config.calculatorDepth, console⟩ : Desk H) =
        (.ok value, reached) := run
  rw [first, second] at together
  rw [together.2.scanner]
  exact whole

end Expression
end HomeBasic
