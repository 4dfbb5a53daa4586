import HomeBasic.Proofs.Desk.Lasting
import HomeBasic.Proofs.Expression.Parallel

/-!
# What lasts while an expression is evaluated

No expression looks for a statement word. So what survives passing over codes and noting the
cursor is left alone by a whole evaluation, in either mode and however it ends.

Main statement: `keepsScanner_evaluate`.
-/

namespace HomeBasic
namespace Expression

open Desk (KeepsScanner keepsScanner_pure keepsScanner_throw keepsScanner_push
  keepsScanner_advance keepsScanner_expect keepsScanner_look keepsScanner_skip)

variable {H : Type} {holds : Scanner → Prop} (inline : Scanner.Inline holds)

/-! ## Operands -/

section
variable {nested : Attempt (Desk H) Value} (keeps : KeepsScanner holds nested)
include keeps

theorem keepsScanner_number : KeepsScanner holds (number nested) := by
  refine keeps.bind fun value _ => ?_
  cases value with
  | number value => exact keepsScanner_pure value
  | text codes => exact keepsScanner_throw .syntaxError

include inline

theorem keepsScanner_subscript : KeepsScanner holds (subscript nested) :=
  (keepsScanner_expect inline _).bind fun _ _ => (keepsScanner_number keeps).bind fun _ _ =>
    (keepsScanner_expect inline _).bind fun _ _ => keepsScanner_pure _

theorem keepsScanner_subscriptOf (use : NameUse) :
    KeepsScanner holds (subscriptOf nested use) := by
  cases use with
  | array => exact keepsScanner_subscript inline keeps
  | text => exact (keepsScanner_skip inline 1).bind fun _ _ => keepsScanner_pure 0
  | number | textFunction => exact keepsScanner_pure 0

theorem keepsScanner_argument (function : Function) :
    KeepsScanner holds (argument nested function) := by
  unfold argument
  split
  · refine (keepsScanner_expect inline _).bind fun _ _ => keeps.bind fun value _ =>
      (keepsScanner_expect inline _).bind fun _ _ => ?_
    split
    · exact keepsScanner_pure value
    · exact keepsScanner_throw .syntaxError
  · exact keepsScanner_pure _

variable [Console H] (environment : Environment) (mode : Mode)

theorem keepsScanner_callFunction (function : Function) :
    KeepsScanner holds (callFunction environment mode nested function) := by
  rw [callFunction_eq]
  exact (keepsScanner_argument inline keeps function).bind fun _ _ =>
    Desk.keepsScanner_consulting _

theorem keepsScanner_reference : KeepsScanner holds (reference environment mode nested) := by
  rw [reference_eq]
  refine Desk.keepsScanner_readName.bind fun (name, use) _ => ?_
  dsimp only
  cases Function.ofName? name use with
  | some function =>
      have called := keepsScanner_callFunction inline keeps environment mode function
      refine (keepsScanner_skip inline _).bind fun _ _ => ?_
      split
      · exact (keepsScanner_skip inline 1).bind fun _ _ => called
      · exact called
  | none =>
      dsimp only
      split
      · exact keepsScanner_throw .syntaxError
      · exact (keepsScanner_skip inline _).bind fun _ _ =>
          (keepsScanner_subscriptOf inline keeps use).bind fun _ _ =>
            (Desk.keepsScanner_ofExcept _).bind fun _ _ =>
              (keepsScanner_look inline).bind fun _ _ => keepsScanner_pure _

/-- An operand is read from the code that it opens with. -/
theorem meets_operand {desk : Desk H} (start : holds desk.scanner) :
    Attempt.Meets (fun _ later => True ∧ holds later.scanner) (fun _ later => holds later.scanner)
      (operand environment mode nested desk.scanner.current desk) := by
  unfold operand
  split
  · exact ((Desk.keepsScanner_scanning (inline.sustains_readNumber _)).bind fun _ _ =>
      keepsScanner_pure _) desk start
  · split
    next opening =>
      have read := inline.meets_readText (inline.pass (Scanner.length_text_le opening) start)
      rw [Attempt.bind_apply, Desk.scanning, Attempt.within_apply]
      generalize Scanner.readText desk.scanner = outcome at read ⊢
      rcases outcome with ⟨fault | text, later⟩
      · exact read
      · exact read
    next =>
      split
      · exact ((keepsScanner_advance inline).bind fun _ _ => keeps.bind fun _ _ =>
          (keepsScanner_expect inline _).bind fun _ _ => keepsScanner_pure _) desk start
      · split
        · exact keepsScanner_reference inline keeps environment mode desk start
        · exact start

end

/-! ## Evaluations -/

include inline

theorem keepsScanner_readOperator :
    KeepsScanner holds (readOperator : Attempt (Desk H) Operator) := by
  refine (keepsScanner_look inline).bind fun code _ => ?_
  dsimp only
  split
  · exact (keepsScanner_advance inline).bind fun _ _ => keepsScanner_pure _
  · exact keepsScanner_pure _

variable [Console H] (environment : Environment) (mode : Mode)

theorem keepsScanner_operations {nested : Attempt (Desk H) Value}
    (keeps : KeepsScanner holds nested) (turns : Nat) :
    KeepsScanner holds (operations environment mode nested turns) := by
  induction turns with
  | zero => exact keepsScanner_throw .syntaxError
  | succ turns inductionHypothesis =>
      intro desk start
      have looked : holds ({ desk with scanner := desk.scanner.look } : Desk H).scanner :=
        inline.look start
      rw [operations, Attempt.bind_apply, Desk.look_apply]
      dsimp only
      cases Pending.ofCode? desk.scanner.look.current with
      | some pending =>
          exact ((keepsScanner_advance inline).bind fun _ _ =>
            (keepsScanner_push pending).bind fun _ _ => inductionHypothesis) _ looked
      | none =>
          refine (meets_operand inline keeps environment mode looked).bind
            fun value reached held => ?_
          refine ((keepsScanner_readOperator inline).bind fun operator _ =>
            Attempt.sustains_get.bind fun desk start => ?_) reached held.2
          have still (items : List Pending) : KeepsScanner holds
              (set { desk with calculator := { desk.calculator with items } } :
                Attempt (Desk H) PUnit) := Desk.keepsScanner_set start
          cases foldAll environment mode operator desk.calculator.items value with
          | error fault => exact keepsScanner_throw fault
          | ok folded =>
              cases folded with
              | ended result below =>
                  exact (still below).bind fun _ _ => keepsScanner_pure result
              | waiting result stack =>
                  exact (still stack).bind fun _ _ => (keepsScanner_push _).bind
                    fun _ _ => inductionHypothesis

theorem keepsScanner_evaluateWithin (levels : Nat) :
    KeepsScanner holds (evaluateWithin environment mode levels : Attempt (Desk H) Value) := by
  induction levels with
  | zero => exact keepsScanner_throw .outOfMemory
  | succ levels inductionHypothesis =>
      exact Desk.keepsScanner_restoring <| (keepsScanner_push .sentinel).bind fun _ _ =>
        Attempt.sustains_get.bind fun _ _ =>
          keepsScanner_operations inline environment mode inductionHypothesis _

theorem keepsScanner_evaluate :
    KeepsScanner holds (evaluate environment mode : Attempt (Desk H) Value) :=
  keepsScanner_evaluateWithin inline environment mode _

theorem keepsScanner_evaluateNumber :
    KeepsScanner holds (evaluateNumber environment mode : Attempt (Desk H) Int) :=
  keepsScanner_number (keepsScanner_evaluate inline environment mode)

end Expression
end HomeBasic
