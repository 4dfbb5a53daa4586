import HomeBasic.Proofs.Desk.Inline
import HomeBasic.Proofs.Expression.Lasting
import HomeBasic.Proofs.Expression.Precedence
import HomeBasic.Proofs.Expression.Turns

/-!
# Expressions end inside their line

Every turn of an expression reads a sign or an operand, and either is a code of the line at least.
So the turns end by themselves, with as many levels of expressions inside one another as there may
be, and an evaluation that ends well has taken up a code.

Main statements: an expression ends inside its line (`endsInline_operations`), and an evaluation
passes over a code of it (`passes_evaluateWithin`).
-/

namespace HomeBasic
namespace Expression

open Desk (EndsInline KeepsScanner Passes keepsScanner_expect keepsScanner_pure
  keepsScanner_push keepsScanner_skip meets_bind passes_throw)
open Scanner (inline_precedes inline_follows)

variable {H : Type} [Console H] (environment : Environment) (mode : Mode)

section
variable {nested : Attempt (Desk H) Value}
  (keeps : ∀ {holds : Scanner → Prop}, Scanner.Inline holds → KeepsScanner holds nested)
  {start : Scanner} {desk : Desk H}
include keeps

/-! ## Operands -/

theorem passes_reference (follows : desk.scanner.Follows start)
    (more : desk.scanner.current ≠ Code.newline) :
    Passes start (reference environment mode nested) desk := by
  have inline := inline_precedes start
  have nested := keeps inline
  rw [reference_eq]
  refine meets_bind follows Desk.keepsScanner_readName fun (name, use) later _ run => ?_
  rw [Desk.readName_apply] at run
  split at run
  · cases run
  · cases run
    have skipped := (Desk.consumes_skip (Climbing.length_take_nameAhead more) more).passes follows
    dsimp only
    cases Function.ofName? _ _ with
    | some function =>
        have called := keepsScanner_callFunction inline nested environment mode function
        refine skipped.bind fun _ => ?_
        split
        · exact (keepsScanner_skip inline 1).bind fun _ _ => called
        · exact called
    | none =>
        dsimp only
        split
        · exact passes_throw follows _
        · exact skipped.bind fun _ => (keepsScanner_subscriptOf inline nested _).bind fun _ _ =>
            (Desk.keepsScanner_ofExcept _).bind fun _ _ =>
              (Desk.keepsScanner_look inline).bind fun _ _ => keepsScanner_pure _

/-- An operand that is read well takes up the code it opens with. -/
theorem passes_operand (follows : desk.scanner.Follows start) :
    Passes start (operand environment mode nested desk.scanner.current) desk := by
  have inline := inline_precedes start
  have inLine {code : Code} (letter : code.isLetter = true) : code ≠ Code.newline := by
    rintro rfl
    exact absurd letter (by decide)
  unfold operand
  split
  next digit =>
    have solid : desk.scanner.current ≠ Code.space := fun blank =>
      absurd (blank ▸ digit) (by decide)
    have stays := Scanner.look_current solid
    have number := Scanner.reads_readNumber environment.config.word (by rw [stays]; exact digit)
    exact ((Desk.consumes_scanning number).passes follows).bind fun _ => keepsScanner_pure _
  next =>
    split
    next opening =>
      exact ((Desk.consumes_scanning (Scanner.reads_readText opening)).passes follows).bind
        fun _ => keepsScanner_pure _
    next =>
      split
      next opening =>
        have advanced : Desk.Consumes Desk.advance desk :=
          Desk.consumes_advance (by rw [opening]; decide)
        exact (advanced.passes follows).bind fun _ => (keeps inline).bind fun _ _ =>
          (keepsScanner_expect inline _).bind fun _ _ => keepsScanner_pure _
      next =>
        split
        next letter => exact passes_reference environment mode keeps follows (inLine letter)
        next => exact passes_throw follows _

/-! ## Turns -/

omit [Console H] keeps in
theorem keepsScanner_settle {holds : Scanner → Prop} (operator : Operator)
    (folded : Except Fault Folded) :
    KeepsScanner holds (settle operator folded : Attempt (Desk H) (Option Value)) := by
  have stays (items : List Pending) : KeepsScanner holds
      (modify fun desk : Desk H => { desk with calculator := { desk.calculator with items } }) :=
    Desk.keepsScanner_of_same fun _ => rfl
  rcases folded with fault | ⟨result, below⟩ | ⟨result, stack⟩
  · exact Desk.keepsScanner_throw fault
  · exact (stays below).bind fun _ _ => keepsScanner_pure _
  · exact (stays stack).bind fun _ _ => (keepsScanner_push _).bind fun _ _ => keepsScanner_pure _

theorem passes_operationsTurn (follows : desk.scanner.Follows start) :
    Passes start (operationsTurn environment mode nested ()) desk := by
  have inline := inline_precedes start
  refine meets_bind follows (Desk.keepsScanner_look (inline_follows start))
    fun code later follows run => ?_
  rw [Desk.look_apply] at run
  cases run
  cases signed : Pending.ofCode? desk.scanner.look.current with
  | some pending =>
      have advanced : Desk.Consumes Desk.advance
          ({ desk with scanner := desk.scanner.look } : Desk H) :=
        Desk.consumes_advance (Climbing.ofCode?_inLine signed).1
      exact (advanced.passes follows).bind fun _ => (keepsScanner_push pending).bind fun _ _ =>
        keepsScanner_pure _
  | none =>
      refine (passes_operand environment mode keeps follows).bind fun value => ?_
      refine (keepsScanner_readOperator inline).bind fun operator _ => ?_
      refine Attempt.sustains_get.bind fun desk _ => ?_
      refine (keepsScanner_settle operator _).bind fun settled _ => ?_
      cases settled with
      | some result => exact keepsScanner_pure _
      | none => exact keepsScanner_pure _

/-- An expression ends inside its line, if what stands inside of it does. -/
theorem endsInline_operations :
    EndsInline (operationsTurn environment mode nested) fun _ desk =>
      operations environment mode nested (desk.scanner.rest.length + 1) desk :=
  Desk.endsInline_of_turns (fun turns _ => operations environment mode nested turns)
    (fun turns _ => operations_succ_eq_turn environment mode nested turns)
    fun _ desk => (passes_operationsTurn environment mode keeps (.refl desk.scanner)).proceeds

theorem passes_operations (turns : Nat) (follows : desk.scanner.Follows start) :
    Passes start (operations environment mode nested turns) desk := by
  cases turns with
  | zero => exact passes_throw follows _
  | succ turns =>
      rw [operations_succ_eq_turn]
      refine (passes_operationsTurn environment mode keeps follows).bind fun next => ?_
      cases next with
      | inl _ =>
          have inline := inline_precedes start
          exact keepsScanner_operations inline environment mode (keeps inline) turns
      | inr value => exact keepsScanner_pure value

end

/-! ## Evaluations -/

/-- An evaluation that ends well takes up a code of the line. -/
theorem passes_evaluateWithin (levels : Nat) {start : Scanner} {desk : Desk H}
    (follows : desk.scanner.Follows start) :
    Passes start (evaluateWithin environment mode levels) desk := by
  cases levels with
  | zero => exact passes_throw follows _
  | succ levels =>
      refine Passes.restoring (meets_bind follows (keepsScanner_push _) fun _ _ follows _ => ?_)
      exact passes_operations environment mode
        (fun inline => keepsScanner_evaluateWithin inline environment mode levels) _ follows

end Expression
end HomeBasic
