import HomeBasic.Proofs.Expression.Items
import HomeBasic.Proofs.Expression.Stack

/-!
# The items of a line that checks

A `DATA` statement checks its items one after the other, each as far as the expression goes,
and a comma, or the end of the line, has to follow. So every item of a line that checks is an
expression by itself.

Main statement: `checks_of_mem_items`.
-/

namespace HomeBasic

namespace Statement

variable {config : Config}

/-- An expression that checks at the first item of a list is that item, if a comma or the end
of the line follows. -/
theorem checks_first {desk reached : Desk NoConsole} {value : Value} {item : List Code}
    {others : List (List Code)}
    (calculator : desk.calculator = .empty config.calculatorDepth)
    (evaluated : Expression.evaluate (.blank config) .check desk = (.ok value, reached))
    (listed : Code.items desk.scanner.line = item :: others) :
    (reached.scanner.look.current = Code.comma → Expression.Checks config item ∧
        Code.items reached.scanner.look.advance.line = others) ∧
      (reached.scanner.look.current = Code.newline →
        Expression.Checks config item ∧ others = []) := by
  obtain ⟨course, ofItem, result, twins⟩ :=
    Expression.matches_item (.blank config) .check config.maxNesting desk listed
  have alone : { desk with scanner := .ofBytes item 0 } =
      (⟨.ofBytes item 0, .empty config.calculatorDepth, {}⟩ : Desk NoConsole) := by
    rw [calculator]
  have inList : Expression.evaluateWithin (.blank config) .check config.maxNesting desk =
      (.ok value, reached) := evaluated
  rw [inList, alone] at result twins
  rcases runAlone : Expression.evaluateWithin (.blank config) .check config.maxNesting
    (⟨.ofBytes item 0, .empty config.calculatorDepth, {}⟩ : Desk NoConsole) with ⟨outcome, ended⟩
  rw [runAlone] at result twins
  obtain rfl : .ok value = outcome := result
  have scanners : Scanner.Twins course ended.scanner.look reached.scanner.look := twins.scanner
  constructor
  · intro comma
    obtain ⟨whole, rest, _, _, behind, line⟩ := ofItem.of_comma scanners comma
    exact ⟨⟨value, ended, runAlone, whole⟩, by rw [← behind, line, Code.items_trimmed]⟩
  · intro ends
    obtain ⟨whole, none⟩ := ofItem.of_newline scanners ends
    exact ⟨⟨value, ended, runAlone, whole⟩, none⟩

/-- The items of a list that checks are expressions that check. -/
theorem checks_of_dataItems {turns : Nat} {desk last : Desk NoConsole}
    (calculator : desk.calculator = .empty config.calculatorDepth)
    (run : dataItems (.blank config) .check turns desk = (.ok (), last)) :
    ∀ item ∈ Code.items desk.scanner.line, Expression.Checks config item := by
  induction turns generalizing desk with
  | zero => cases run
  | succ turns inductionHypothesis =>
      obtain ⟨value, reached, evaluated, run⟩ := Attempt.exists_of_bind_eq_ok run
      have kept : reached.calculator = desk.calculator := by
        have stacked := (Expression.stacked_evaluateWithin (.blank config) .check
          config.maxNesting desk.calculator).kept (show desk.calculator = _ from rfl)
        exact (congrArg (·.2.calculator) evaluated).symm.trans stacked
      cases listed : Code.items desk.scanner.line with
      | nil => exact absurd listed Code.items_ne_nil
      | cons item others =>
          obtain ⟨between, ends⟩ := checks_first calculator evaluated listed
          rw [Attempt.bind_apply, Desk.look_apply] at run
          dsimp only at run
          split at run
          next comma =>
            obtain ⟨checks, behind⟩ := between comma
            have further := @inductionHypothesis
              { reached with scanner := reached.scanner.look.advance }
              (kept.trans calculator) run
            rw [behind] at further
            exact List.forall_mem_cons.mpr ⟨checks, further⟩
          next =>
            rw [Desk.expectEnd_apply] at run
            dsimp only at run
            rw [Scanner.look_look] at run
            split at run
            next newline =>
              obtain ⟨checks, rfl⟩ := ends newline
              exact List.forall_mem_singleton.mpr checks
            next => cases run

/-- A `DATA` passes over its word and checks the list that follows. -/
theorem statement_data {desk : Desk NoConsole}
    (opens : (atWord desk.scanner).current = StatementWord.data.code) :
    statement (.blank config) .check desk =
      (do
        dataItems (.blank config) .check ((atWord desk.scanner).advance.rest.length + 1)
        return Outcome.done)
      ⟨(atWord desk.scanner).advance, desk.calculator.clear, desk.console⟩ := by
  rw [statement_apply, Attempt.bind_apply, lookForWord_apply]
  dsimp only
  rw [opens]
  rfl

/-- The items of a line that checks are expressions that check. -/
theorem checks_of_mem_items {line : Line} (oneLine : Code.newline ∉ line.body)
    (checks : Checks config line.body) : ∀ item ∈ line.items, Expression.Checks config item := by
  cases listed : line.list? with
  | none =>
      rw [Line.items_of_none listed]
      simp
  | some list =>
      obtain ⟨found, checked⟩ := checks
      rw [Line.items_of_list listed, ← Code.items_trimmed]
      rw [Line.list?_eq_some_iff.mp listed] at checked oneLine
      let scanner := Scanner.ofBytes (StatementWord.data.code :: list) 0
      have word : (atWord scanner).line = StatementWord.data.code :: list := by
        have line : scanner.line = StatementWord.data.code :: list :=
          Scanner.line_ofBytes oneLine
        change (Scanner.look { scanner with wordExpected := true }).line = _
        rw [Scanner.line_look]
        change scanner.line.dropWhile _ = _
        rw [line]
        rfl
      have opens : (atWord scanner).current = StatementWord.data.code := by
        rw [Scanner.current_eq_headD, word]
        rfl
      have behind : (atWord scanner).advance.line = Code.trimmed list := by
        rw [Scanner.line_advance, word]
        rfl
      obtain ⟨after, run⟩ : ∃ after, Statement.line (.blank config) .check
          (⟨scanner, .empty config.calculatorDepth, {}⟩ : Desk NoConsole) = (.ok found, after) :=
        ⟨_, Prod.ext checked rfl⟩
      obtain ⟨turns, between, counted, run⟩ := Attempt.exists_of_bind_eq_ok run
      cases counted
      obtain ⟨outcome, reached, run, _⟩ := Attempt.exists_of_bind_eq_ok run
      rw [statement_data opens] at run
      obtain ⟨_, last, run, _⟩ := Attempt.exists_of_bind_eq_ok run
      rw [← behind]
      have checks := checks_of_dataItems rfl run
      exact checks

end Statement
end HomeBasic
