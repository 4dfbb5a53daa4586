import HomeBasic.Proofs.Expression.Ends
import HomeBasic.Proofs.Statement.Lasting

/-!
# Lines end inside themselves

A line is read statement by statement, and a `PRINT` and a `DATA` item by item. Every statement
takes up the word or the name that it opens with, and every item a code of its expression or the
separator behind it. So these loops end by themselves, and no one of them leaves the line, however
it ends.

Main statements: the loops of a line end inside of it (`endsInline_printItems`,
`endsInline_dataItems`, `endsInline_line`), and what is read well is a code at least
(`passes_printItem`, `passes_statement`).
-/

namespace HomeBasic
namespace Statement

open Desk (EndsInline KeepsScanner Passes Proceeds endsInline_of_turns keepsScanner_advance
  keepsScanner_expectEnd keepsScanner_look keepsScanner_pure keepsScanner_throw meets_bind)
open Expression (keepsScanner_evaluate keepsScanner_evaluateNumber passes_evaluateWithin)
open Scanner (inline_follows inline_precedes)

variable {H : Type} [Console H] (environment : Environment) (mode : Mode) {start : Scanner}
  {desk : Desk H}

/-! ## Items of a `PRINT` -/

omit [Console H] in
/-- A code that stands at hand is passed over. -/
theorem passes_advance (follows : desk.scanner.Follows start)
    (more : desk.scanner.current ≠ Code.newline) : Passes start Desk.advance desk :=
  (Desk.consumes_advance more).passes follows

/-- An item that is read well takes up a code of the line. -/
theorem passes_printItem (follows : desk.scanner.Follows start) :
    Passes start (printItem environment mode desk.scanner.current) desk := by
  have inline := inline_precedes start
  have ends : KeepsScanner start.Precedes _ := @keepsScanner_itemEnd H _ inline
  unfold printItem
  split
  next word =>
    exact (passes_advance follows (by rw [word]; decide)).bind fun _ =>
      (keepsScanner_numberPair inline environment mode).bind fun _ _ =>
        (keepsScanner_printing mode _).bind fun _ _ => ends
  next =>
    split
    next word =>
      exact (passes_advance follows (by rw [word]; decide)).bind fun _ =>
        (keepsScanner_evaluateNumber inline environment mode).bind fun _ _ =>
          (keepsScanner_printing mode _).bind fun _ _ => ends
    next =>
      exact (passes_evaluateWithin environment mode _ follows).bind fun _ =>
        (keepsScanner_printing mode _).bind fun _ _ => ends

/-- An item or a separator of a `PRINT` is read, or its end. -/
def printTurn (newline : Bool) : Attempt (Desk H) (Bool ⊕ Unit) := do
  let code ← Desk.look
  if code = Code.newline then do
    if newline then
      printing mode Printing.newline
    return .inr ()
  else if code = Code.semicolon then do
    Desk.advance
    return .inl false
  else if code = Code.comma then do
    Desk.advance
    printing mode (Printing.comma environment.config.width)
    return .inl false
  else do
    printItem environment mode code
    return .inl true

theorem printItems_succ (turns : Nat) (newline : Bool) :
    (printItems environment mode (turns + 1) newline : Attempt (Desk H) Unit) =
      printTurn environment mode newline >>= Attempt.after (printItems environment mode turns) := by
  rw [printItems, printTurn, bind_assoc]
  refine bind_congr fun code => ?_
  split
  · cases newline
    · rfl
    · simp only [if_true, bind_assoc, pure_bind, Attempt.after, bind_pure_unit]
  · split
    · simp only [bind_assoc, pure_bind, Attempt.after]
    · split
      · simp only [bind_assoc, pure_bind, Attempt.after]
      · simp only [bind_assoc, pure_bind, Attempt.after]

/-- A turn that is not the last one takes up an item or a separator. -/
theorem proceeds_printTurn (newline : Bool) (desk : Desk H) :
    Proceeds desk.scanner (printTurn environment mode newline) desk := by
  have looks := @keepsScanner_look H _ (inline_follows desk.scanner)
  refine meets_bind (.refl _) looks fun code later follows run => ?_
  rw [Desk.look_apply] at run
  cases run
  by_cases ends : desk.scanner.look.current = Code.newline
  · rw [if_pos ends]
    split
    · exact meets_bind follows (keepsScanner_printing mode _) fun _ _ follows _ => follows
    · exact follows
  · rw [if_neg ends]
    refine Passes.proceeds ?_
    split
    · exact (passes_advance follows ends).bind fun _ => keepsScanner_pure _
    · split
      · exact (passes_advance follows ends).bind fun _ =>
          (keepsScanner_printing mode _).bind fun _ _ => keepsScanner_pure _
      · exact (passes_printItem environment mode follows).bind fun _ => keepsScanner_pure _

/-- A `PRINT` ends inside its line. -/
theorem endsInline_printItems :
    EndsInline (printTurn environment mode) fun newline (desk : Desk H) =>
      printItems environment mode (desk.scanner.rest.length + 1) newline desk :=
  endsInline_of_turns (printItems environment mode) (printItems_succ environment mode)
    (proceeds_printTurn environment mode)

/-! ## Items of a `DATA` -/

/-- An item of a `DATA` is read, with the separator or the end behind it. -/
def dataTurn (_ : Unit) : Attempt (Desk H) (Unit ⊕ Unit) := do
  let _ ← expression environment mode
  if (← Desk.look) = Code.comma then do
    Desk.advance
    return .inl ()
  else do
    Desk.expectEnd
    return .inr ()

theorem dataItems_succ (turns : Nat) :
    (dataItems environment mode (turns + 1) : Attempt (Desk H) Unit) =
      dataTurn environment mode () >>= Attempt.after fun _ => dataItems environment mode turns := by
  rw [dataItems, dataTurn]
  simp only [bind_assoc]
  refine bind_congr fun value => bind_congr fun code => ?_
  split
  · simp only [bind_assoc, pure_bind, Attempt.after]
  · simp only [bind_assoc, pure_bind, Attempt.after, bind_pure_unit]

/-- Every turn takes up an item. -/
theorem passes_dataTurn (follows : desk.scanner.Follows start) :
    Passes start (dataTurn environment mode ()) desk := by
  have inline := inline_precedes start
  refine (passes_evaluateWithin environment mode _ follows).bind fun _ => ?_
  refine (keepsScanner_look inline).bind fun code _ => ?_
  split
  · exact (keepsScanner_advance inline).bind fun _ _ => keepsScanner_pure _
  · exact (keepsScanner_expectEnd inline).bind fun _ _ => keepsScanner_pure _

/-- A `DATA` ends inside its line. -/
theorem endsInline_dataItems :
    EndsInline (dataTurn environment mode) fun _ (desk : Desk H) =>
      dataItems environment mode (desk.scanner.rest.length + 1) desk :=
  endsInline_of_turns (fun turns _ => dataItems environment mode turns)
    (fun turns _ => dataItems_succ environment mode turns)
    fun _ desk => (passes_dataTurn environment mode (.refl desk.scanner)).proceeds

/-! ## Statements of a line -/

/-- What survives passing over codes of a line, noting the cursor and expecting a word survives
that the line is read. -/
structure Linewise (holds : Scanner → Prop) : Prop extends Scanner.Inline holds where
  expecting : ∀ {scanner : Scanner} (wordExpected : Bool), holds scanner →
    holds { scanner with wordExpected }

theorem linewise_follows (start : Scanner) : Linewise (·.Follows start) :=
  ⟨inline_follows start, fun _ follows => follows⟩

section
variable {holds : Scanner → Prop} (linewise : Linewise holds)
include linewise

theorem keepsScanner_statement :
    KeepsScanner holds (statement environment mode : Attempt (Desk H) Outcome) := by
  intro desk found
  have looked : holds (atWord desk.scanner) :=
    linewise.expecting false (linewise.look (linewise.expecting true found))
  rw [statement_apply, Attempt.bind_apply, lookForWord_apply]
  dsimp only
  split
  · exact ⟨trivial, looked⟩
  · exact ((keepsScanner_readWord linewise.toInline _).bind fun word _ =>
      keepsScanner_afterWord linewise.toInline environment mode word) _ looked

theorem keepsScanner_statements (turns : Nat) :
    KeepsScanner holds
      (statements environment mode turns : Attempt (Desk H) (Option Command)) := by
  induction turns with
  | zero => exact keepsScanner_throw _
  | succ turns inductionHypothesis =>
      refine (keepsScanner_statement environment mode linewise).bind fun outcome _ => ?_
      cases outcome with
      | done => exact keepsScanner_pure _
      | act command => exact keepsScanner_pure _
      | another => exact inductionHypothesis

/-- Reading a line moves the scanner over codes of the line, and in no other way. -/
theorem keepsScanner_line :
    KeepsScanner holds (line environment mode : Attempt (Desk H) (Option Command)) :=
  keepsScanner_turnsLeft.bind fun turns _ => keepsScanner_statements environment mode linewise turns

end

/-- A place to assign to that is read well takes up its name. -/
theorem passes_target (follows : desk.scanner.Follows start) :
    Passes start (target environment mode) desk := by
  have inline := inline_precedes start
  refine meets_bind follows (keepsScanner_variableName (inline_follows start))
    fun (name, use) later follows run => ?_
  rw [variableName, Attempt.bind_apply, Desk.look_apply] at run
  dsimp only at run
  split at run
  · cases run
  next letter =>
    have more : desk.scanner.look.current ≠ Code.newline := fun ended =>
      letter (by rw [ended]; decide)
    obtain ⟨_, named, read, run⟩ := Attempt.exists_of_bind_eq_ok run
    rw [Desk.readName_apply] at read
    split at read
    · cases read
    · cases read
      dsimp only at run
      split at run
      · cases run
      · cases run
        have skipped : Desk.Consumes (Desk.skip _)
            ({ desk with scanner := desk.scanner.look } : Desk H) :=
          Desk.consumes_skip (Climbing.length_take_nameAhead more) more
        exact (skipped.passes follows).bind fun _ =>
          keepsScanner_afterName inline environment mode _ _

/-- An assignment without its word opens with the place to assign to. -/
theorem passes_assignment (follows : desk.scanner.Follows start) :
    Passes start (afterWord environment mode .let) desk := by
  have inline := inline_precedes start
  refine Passes.bind ?_ fun operands =>
    keepsScanner_afterOperands inline environment mode .let operands
  rw [StatementWord.operandClasses, List.foldlM_cons]
  refine Passes.bind ?_ fun operands =>
    keepsScanner_operands inline environment mode operands _
  exact (passes_target environment mode follows).bind fun _ => keepsScanner_pure _

/-- What opens with a word, or with the name of a place to assign to, takes it up. -/
theorem passes_wordAndAfter (follows : desk.scanner.Follows start)
    (more : desk.scanner.current ≠ Code.newline) :
    Passes start (readWord desk.scanner.current >>= afterWord environment mode) desk := by
  have inline := inline_precedes start
  unfold readWord
  split
  next word _ =>
    exact ((passes_advance follows more).bind fun _ => keepsScanner_pure word).bind
      fun word => keepsScanner_afterWord inline environment mode word
  next =>
    split
    next =>
      rw [pure_bind]
      exact passes_assignment environment mode follows
    next => exact Desk.passes_throw follows _

theorem statement_eq_ite (desk : Desk H) :
    statement environment mode desk =
      (if (atWord desk.scanner).current = Code.newline then pure .done
        else readWord (atWord desk.scanner).current >>= afterWord environment mode)
        { desk with scanner := atWord desk.scanner, calculator := desk.calculator.clear } := by
  rw [statement_apply, Attempt.bind_apply, lookForWord_apply]

/-- A statement that ends well has taken up a code, unless the line ended in front of it. -/
theorem passes_statement (more : (atWord desk.scanner).current ≠ Code.newline) :
    Passes desk.scanner (statement environment mode) desk := by
  have follows : (atWord desk.scanner).Follows desk.scanner :=
    Scanner.follows_look { desk.scanner with wordExpected := true }
  have stated := statement_eq_ite environment mode desk
  rw [if_neg more] at stated
  rw [Passes, stated]
  exact @passes_wordAndAfter H _ environment mode _
    { desk with scanner := atWord desk.scanner, calculator := desk.calculator.clear } follows more

/-- A statement that leads on to another has taken up a code. -/
theorem precedes_of_another {later : Desk H}
    (run : statement environment mode desk = (.ok .another, later)) :
    desk.scanner.Precedes later.scanner := by
  have more : (atWord desk.scanner).current ≠ Code.newline := by
    intro ended
    rw [statement_eq_ite, if_pos ended] at run
    cases run
  have passes := passes_statement environment mode more
  rwa [Passes, run] at passes

/-- A statement is read, and the last one of a line tells what the line comes to. -/
def statementTurn (_ : Unit) : Attempt (Desk H) (Unit ⊕ Option Command) := do
  match ← statement environment mode with
  | .done => return .inr none
  | .act command => return .inr (some command)
  | .another => return .inl ()

theorem statements_succ (turns : Nat) :
    (statements environment mode (turns + 1) : Attempt (Desk H) (Option Command)) =
      statementTurn environment mode () >>=
        Attempt.after fun _ => statements environment mode turns := by
  rw [statements, statementTurn, bind_assoc]
  refine bind_congr fun outcome => ?_
  cases outcome <;> rfl

theorem proceeds_statementTurn (desk : Desk H) :
    Proceeds desk.scanner (statementTurn environment mode ()) desk := by
  have keeps : KeepsScanner _ (statement environment mode : Attempt (Desk H) Outcome) :=
    keepsScanner_statement environment mode (linewise_follows desk.scanner)
  have follows := keeps.kept (.refl desk.scanner)
  unfold Proceeds
  rw [statementTurn, Attempt.bind_apply]
  rcases run : statement environment mode desk with ⟨fault | _ | command | _, later⟩
  all_goals rw [run] at follows
  · exact follows
  · exact follows
  · exact follows
  · exact precedes_of_another environment mode run

/-- A line ends inside itself. -/
theorem endsInline_line :
    EndsInline (statementTurn environment mode) fun _ (desk : Desk H) =>
      line environment mode desk :=
  endsInline_of_turns (fun turns _ => statements environment mode turns)
    (fun turns _ => statements_succ environment mode turns)
    fun _ => proceeds_statementTurn environment mode

end Statement
end HomeBasic
