import HomeBasic.Proofs.Statement.Mirrored
import HomeBasic.Verdict

/-!
# The check of an edit line is pure

The check runs the same code that carries lines out, over the whole of a statement. Still
it makes no difference what there is to read, what a console would answer, and what is
pending from before: the verdict depends on the text and the cursor alone, and the console
is left as it was. The cursor only decides the glyph that is shown at it.

Main statements: a check with a machine at hand is the check with nothing at hand
(`checkAt_ofEditLine`), and what it finds out but for the glyph depends on the bytes alone
(`check_congr`).
-/

namespace HomeBasic
namespace EditLine

open Attempt (Mirrored)

section
variable {H : Type} [Console H]

/-- Checks an edit line with something to read and a console at hand; yields the verdict
and the desk that is left. -/
def checkAt (environment : Environment) (desk : Desk H) : Verdict × Desk H :=
  match readLineNumber desk with
  | (.error fault, reached) => (⟨.error (fault, 0), 0, reached.scanner.glyph⟩, reached)
  | (.ok number, passed) =>
      match Statement.line environment .check passed with
      | (.ok _, reached) =>
          (⟨.ok number, passed.scanner.position, reached.scanner.glyph⟩, reached)
      | (.error fault, reached) =>
          (⟨.error (fault, reached.scanner.position), passed.scanner.position,
            reached.scanner.glyph⟩, reached)

theorem check_eq_checkAt (config : Config) (edit : EditLine) :
    edit.check config =
      (checkAt (.blank config)
        (⟨.ofEditLine edit, .empty config.calculatorDepth, {}⟩ : Desk NoConsole)).1 := by
  unfold check checkAt
  dsimp only
  rcases readLineNumber
    (⟨.ofEditLine edit, .empty config.calculatorDepth, {}⟩ : Desk NoConsole) with
    ⟨fault | number, passed⟩
  · rfl
  · dsimp only
    rcases Statement.line (.blank config) .check passed with ⟨fault | found, reached⟩ <;> rfl

/-! ## What is pending from before -/

omit [Console H] in
theorem ignores_readLineNumber : Desk.Ignores (readLineNumber : Attempt (Desk H) Nat) := by
  intro desk calculator
  simp only [readLineNumber, Attempt.bind_apply, Desk.look_apply]
  split
  · rfl
  · simp only [Attempt.bind_apply, Attempt.get_apply, Desk.scanning, Attempt.within_apply,
      Attempt.modify_apply]
    split <;> rfl

/-- A line starts with nothing pending. -/
theorem line_clear (environment : Environment) (mode : Mode) (desk : Desk H) :
    Statement.line environment mode { desk with calculator := desk.calculator.clear } =
      Statement.line environment mode desk := rfl

theorem checkAt_clear (environment : Environment) (desk : Desk H) :
    (checkAt environment { desk with calculator := desk.calculator.clear }).1 =
        (checkAt environment desk).1 ∧
      (checkAt environment { desk with calculator := desk.calculator.clear }).2.console =
        (checkAt environment desk).2.console := by
  have capacity : (readLineNumber desk).2.calculator = desk.calculator := by
    have same := ignores_readLineNumber desk desk.calculator
    exact congrArg (fun outcome => outcome.2.calculator) same
  unfold checkAt
  rw [ignores_readLineNumber desk desk.calculator.clear]
  rcases run : readLineNumber desk with ⟨fault | number, passed⟩
  · exact ⟨rfl, rfl⟩
  · rw [run] at capacity
    dsimp only at capacity ⊢
    rw [← capacity, line_clear]
    exact ⟨rfl, rfl⟩

end

/-! ## Two checks -/

section
variable {H K : Type} {same : Prop} {meet : H → K → Prop}

theorem level_readLineNumber :
    Mirrored (Desk.Level same meet) (readLineNumber : Attempt (Desk H) Nat)
      (readLineNumber : Attempt (Desk K) Nat) (Desk.Level same meet) := by
  refine Desk.level_look.bind fun code => ?_
  split
  · exact Attempt.mirrored_pure 0
  · intro desk opposite level
    rw [Attempt.bind_apply, Attempt.bind_apply, Attempt.get_apply, Attempt.get_apply]
    dsimp only
    rw [level.scanner.rest]
    have passed : Mirrored (Desk.Level same meet)
        (Desk.scanning (modify (·.pass (desk.scanner.rest.takeWhile Code.isDigit).length)) :
          Attempt (Desk H) PUnit)
        (Desk.scanning (modify (·.pass (desk.scanner.rest.takeWhile Code.isDigit).length)) :
          Attempt (Desk K) PUnit) (Desk.Level same meet) :=
      Desk.level_scanning fun _ _ level => ⟨rfl, level.pass _⟩
    refine passed.bind (fun _ => ?_) desk opposite level
    split
    · exact Attempt.mirrored_throw .syntaxError
    · exact Attempt.mirrored_pure _

variable [Console H] [Console K]

/-- Two checks of one line come to the same, and to the same glyph if they watch the same
cursor. -/
theorem level_checkAt {first second : Environment} (config : second.config = first.config)
    {desk : Desk H} {opposite : Desk K} (level : desk.Level same meet opposite) :
    (checkAt second opposite).1.result = (checkAt first desk).1.result ∧
      (checkAt second opposite).1.body = (checkAt first desk).1.body ∧
      (same → (checkAt second opposite).1.glyph = (checkAt first desk).1.glyph) ∧
      meet (checkAt first desk).2.console (checkAt second opposite).2.console := by
  have numbered := level_readLineNumber desk opposite level
  unfold checkAt
  generalize readLineNumber desk = outcome at numbered ⊢
  generalize readLineNumber opposite = arrival at numbered ⊢
  obtain ⟨alike, level⟩ := numbered
  rcases outcome with ⟨fault | number, passed⟩ <;> rcases arrival with ⟨other, moved⟩ <;>
    cases alike
  · exact ⟨rfl, rfl, fun equal => congrArg Scanner.glyph (level.scanner.equal equal), level.console⟩
  · have lined := Statement.level_line (Statement.alike_check config) passed moved level
    have body := level.scanner.position
    dsimp only at lined body ⊢
    generalize Statement.line first .check passed = outcome at lined ⊢
    generalize Statement.line second .check moved = arrival at lined ⊢
    obtain ⟨alike, level⟩ := lined
    rcases outcome with ⟨fault | found, reached⟩ <;> rcases arrival with ⟨other, stopped⟩ <;>
      cases alike
    · have position := level.scanner.position
      dsimp only at position ⊢
      rw [position]
      exact ⟨rfl, body, fun equal => congrArg Scanner.glyph (level.scanner.equal equal),
        level.console⟩
    · exact ⟨rfl, body, fun equal => congrArg Scanner.glyph (level.scanner.equal equal),
        level.console⟩

end

/-! ## The verdict -/

/-- A check with a machine at hand, and with anything pending, is the check with nothing at
hand, and leaves the console as it was. -/
theorem checkAt_ofEditLine {H : Type} [Console H] (environment : Environment) (edit : EditLine)
    (pending : List Pending) (console : H) :
    let checked := checkAt environment
      ⟨.ofEditLine edit, ⟨environment.config.calculatorDepth, pending⟩, console⟩
    checked.1 = edit.check environment.config ∧ checked.2.console = console := by
  intro checked
  have cleared := checkAt_clear environment
    ⟨.ofEditLine edit, ⟨environment.config.calculatorDepth, pending⟩, console⟩
  have level : Desk.Level True (fun (_ : NoConsole) there => there = console)
      ⟨.ofEditLine edit, .empty environment.config.calculatorDepth, {}⟩
      ⟨.ofEditLine edit, .empty environment.config.calculatorDepth, console⟩ :=
    ⟨⟨rfl, rfl, fun _ => rfl⟩, rfl, rfl⟩
  obtain ⟨result, body, glyph, kept⟩ :=
    level_checkAt (show environment.config = (Environment.blank environment.config).config from rfl)
      level
  rw [← check_eq_checkAt] at result body glyph
  have verdict : checked.1 = (checkAt environment
      ⟨.ofEditLine edit, .empty environment.config.calculatorDepth, console⟩).1 := cleared.1.symm
  refine ⟨?_, cleared.2.symm.trans kept⟩
  rw [verdict]
  generalize (checkAt environment
    ⟨.ofEditLine edit, .empty environment.config.calculatorDepth, console⟩).1 = found
    at result body glyph ⊢
  generalize edit.check environment.config = expected at result body glyph ⊢
  obtain ⟨_, _, _⟩ := found
  obtain ⟨_, _, _⟩ := expected
  cases result
  cases body
  cases glyph trivial
  rfl

/-- Where the cursor is makes no difference to what is found out about a line. -/
theorem check_congr (config : Config) {edit other : EditLine} (bytes : other.bytes = edit.bytes) :
    (other.check config).result = (edit.check config).result := by
  have level : Desk.Level False (fun (_ _ : NoConsole) => True)
      ⟨.ofEditLine edit, .empty config.calculatorDepth, {}⟩
      ⟨.ofEditLine other, .empty config.calculatorDepth, {}⟩ :=
    ⟨⟨bytes, rfl, False.elim⟩, rfl, trivial⟩
  rw [check_eq_checkAt, check_eq_checkAt]
  exact (level_checkAt rfl level).1

end EditLine
end HomeBasic
