import HomeBasic.Proofs.Expression.Climbing.Turns
import HomeBasic.Proofs.Function.Faults

/-!
# Climbing never runs out of memory

An expression that climbing cannot evaluate is ill formed, or it is its values that
have no result. Nothing else stops a climb.

Main statement: these are the only faults of `evaluate` (`confined_evaluate`).
-/

namespace HomeBasic
namespace Climbing

open Attempt (Confined)

variable {H : Type} {environment : Environment}

/-- The faults of an expression: it is ill formed, or its values have no result. -/
def Fails (environment : Environment) (fault : Fault) : Prop :=
  fault = .syntaxError ∨ environment.Raises fault

theorem confined_expect (code : Code) :
    Confined (Fails environment) (Desk.expect code : Attempt (Desk H) Unit) := by
  intro desk fault failed
  rw [Desk.expect_apply] at failed
  split at failed
  · cases failed
  · cases failed
    exact .inl rfl

theorem confined_look : Confined (Fails environment) (Desk.look : Attempt (Desk H) Code) := by
  intro desk fault failed
  cases failed

theorem confined_advance :
    Confined (Fails environment) (Desk.advance : Attempt (Desk H) Unit) := by
  intro desk fault failed
  cases failed

theorem confined_skip (count : Nat) :
    Confined (Fails environment) (Desk.skip count : Attempt (Desk H) Unit) := by
  intro desk fault failed
  cases failed

theorem confined_readName :
    Confined (Fails environment) (Desk.readName : Attempt (Desk H) (Name × NameUse)) := by
  intro desk fault failed
  rw [Desk.readName_apply] at failed
  split at failed
  · cases failed
    exact .inl rfl
  · cases failed

theorem confined_readDigits (size : WordSize) (digits : List Code) (value : Int) :
    Confined (Fails environment) (Scanner.readDigits size digits value) := by
  induction digits generalizing value with
  | nil => exact Attempt.confined_pure value
  | cons digit digits inductionHypothesis =>
      refine (Attempt.confined_ofExcept fun fault failed => ?_).bind fun next => ?_
      · rw [Operator.fault_of_checked failed]
        exact .inr .overflow
      · intro scanner fault failed
        exact inductionHypothesis next (scanner.pass 1) fault failed

theorem confined_readNumber (size : WordSize) :
    Confined (Fails environment) (Scanner.readNumber size) :=
  fun scanner => confined_readDigits size (scanner.look.rest.takeWhile Code.isDigit) 0 scanner.look

theorem confined_readText : Confined (Fails environment) Scanner.readText := by
  intro scanner fault failed
  simp only [Scanner.readText, Attempt.bind_apply, Attempt.get_apply, Attempt.set_apply] at failed
  split at failed
  · cases failed
  · cases failed
    exact .inl rfl

theorem confined_combine (operator : Operator) (left right : Value) :
    Confined (Fails environment)
      (Attempt.ofExcept (combine environment operator left right) : Attempt (Desk H) Value) := by
  rcases left with left | left <;> rcases right with right | right
  case number.number =>
    refine Attempt.confined_map fun fault failed => ?_
    rw [Operator.fault_of_apply failed]
    exact .inr .overflow
  case text.text =>
    exact Attempt.confined_map fun fault failed => .inl (Operator.fault_of_compareTexts failed)
  all_goals exact Attempt.confined_throw (.inl rfl)

section
variable {nested : Attempt (Desk H) Value}

theorem confined_subscript (confined : Confined (Fails environment) nested) :
    Confined (Fails environment) (subscript nested) := by
  refine (confined_expect _).bind fun _ => confined.bind fun index => ?_
  cases index with
  | number index => exact (confined_expect _).bind fun _ => Attempt.confined_pure index
  | text codes => exact Attempt.confined_throw (.inl rfl)

variable [Console H]

theorem confined_consulting {function : Function} {argument : Value}
    (typed : argument.isText = function.takesText) :
    Confined (Fails environment)
      (Desk.consulting (function.call environment argument) : Attempt (Desk H) Value) :=
  Attempt.confined_within fun state fault failed =>
    .inr (Function.confined_call typed state fault failed)

theorem confined_callFunction (confined : Confined (Fails environment) nested)
    (function : Function) : Confined (Fails environment) (call environment nested function) := by
  unfold call
  split
  · refine (confined_expect _).bind fun _ => confined.bind fun argument =>
      (confined_expect _).bind fun _ => ?_
    split
    next typed => exact confined_consulting typed
    next => exact Attempt.confined_throw (.inl rfl)
  next bare =>
    apply confined_consulting
    cases function <;> first | rfl | exact absurd rfl bare

omit [Console H] in
theorem confined_fetch (confined : Confined (Fails environment) nested) (name : Name)
    (use : NameUse) : Confined (Fails environment) (fetch environment nested name use) := by
  cases use with
  | number =>
      refine Attempt.confined_map fun fault failed => ?_
      rw [Variables.fault_of_number failed]
      exact .inr .notFound
  | text =>
      refine (confined_skip 1).bind fun _ => Attempt.confined_map fun fault failed => ?_
      rw [Variables.fault_of_text failed]
      exact .inr .notFound
  | array =>
      refine (confined_subscript confined).bind fun index =>
        Attempt.confined_map fun fault failed => ?_
      rcases Variables.fault_of_element failed with rfl | rfl
      · exact .inr .notFound
      · exact .inr .outOfRange
  | textFunction => exact Attempt.confined_throw (.inl rfl)

theorem confined_named (confined : Confined (Fails environment) nested) :
    Confined (Fails environment) (named environment nested) := by
  refine confined_readName.bind fun (name, use) => ?_
  dsimp only
  cases Function.ofName? name use with
  | some function =>
      apply (confined_skip _).bind
      intro _
      split
      · exact (confined_skip 1).bind fun _ => confined_callFunction confined function
      · exact confined_callFunction confined function
  | none =>
      dsimp only
      split
      · exact Attempt.confined_throw (.inl rfl)
      · exact (confined_skip _).bind fun _ => (confined_fetch confined name use).bind fun _ =>
          confined_look.bind fun _ => Attempt.confined_pure _

theorem confined_operand (confined : Confined (Fails environment) nested) (code : Code) :
    Confined (Fails environment) (operand environment nested code) := by
  unfold operand
  repeat' split
  · exact (Attempt.confined_within (confined_readNumber _)).bind fun _ => Attempt.confined_pure _
  · exact (Attempt.confined_within confined_readText).bind fun _ => Attempt.confined_pure _
  · exact confined_advance.bind fun _ => confined.bind fun _ =>
      (confined_expect _).bind fun _ => Attempt.confined_pure _
  · exact confined_named confined
  · exact Attempt.confined_throw (.inl rfl)

omit [Console H] in
theorem confined_readOperator :
    Confined (Fails environment) (Expression.readOperator : Attempt (Desk H) Operator) := by
  apply confined_look.bind
  intro code
  dsimp only
  split
  · exact confined_advance.bind fun _ => Attempt.confined_pure _
  · exact Attempt.confined_pure _

end

section
variable {rightSide : Nat → Attempt (Desk H) (Value × Operator)}

theorem confined_unary [Console H]
    (confined : ∀ minimum, Confined (Fails environment) (rightSide minimum)) (code : Code) :
    Confined (Fails environment) (unary environment rightSide code) := by
  have confined_signed : ∀ number priority,
      Confined (Fails environment) (signed environment rightSide number priority) :=
    fun number priority => confined_advance.bind fun _ => (confined priority).bind fun _ =>
      (confined_combine _ _ _).bind fun _ => Attempt.confined_pure _
  have nested : Confined (Fails environment) (do return (← rightSide 0).1) :=
    (confined 0).bind fun _ => Attempt.confined_pure _
  unfold unary
  repeat' split
  · exact confined_signed 0 9
  · exact confined_signed (-1) 4
  · exact (confined_operand nested code).bind fun _ => confined_readOperator.bind fun _ =>
      Attempt.confined_pure _

theorem confined_extend
    (confined : ∀ minimum, Confined (Fails environment) (rightSide minimum))
    (minimum turns : Nat) (left : Value) (operator : Operator) :
    Confined (Fails environment) (extend environment rightSide minimum turns left operator) := by
  induction turns generalizing left operator with
  | zero => exact Attempt.confined_throw (.inl rfl)
  | succ turns inductionHypothesis =>
      unfold extend
      split
      · exact Attempt.confined_pure _
      · exact (confined _).bind fun _ => (confined_combine _ _ _).bind fun _ =>
          inductionHypothesis _ _

end

variable [Console H]

theorem confined_climb (turns minimum : Nat) :
    Confined (Fails environment) (climb environment turns minimum : Attempt (Desk H) _) := by
  induction turns generalizing minimum with
  | zero => exact Attempt.confined_throw (.inl rfl)
  | succ turns inductionHypothesis =>
      exact confined_look.bind fun code => (confined_unary inductionHypothesis code).bind fun _ =>
        confined_extend inductionHypothesis _ _ _ _

theorem confined_evaluate :
    Confined (Fails environment) (evaluate environment : Attempt (Desk H) Value) := by
  rw [evaluate_eq]
  refine Attempt.Confined.bind ?_ fun _ => Attempt.confined_pure _
  intro desk
  exact confined_climb (desk.scanner.codesLeft + 1) 0 desk

end Climbing
end HomeBasic
