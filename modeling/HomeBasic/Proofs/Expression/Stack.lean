import HomeBasic.Proofs.Expression.Parallel
import HomeBasic.Proofs.Expression.Precedence

/-!
# The stack after an evaluation

All evaluations share one stack of pending operations. Each opens with a sentinel, leaves
what is below the sentinel alone, and takes the sentinel away when it ends. So an evaluation
leaves the stack as it found it, in either mode and however it ends.

Main statement: `stacked_evaluateWithin`.
-/

namespace HomeBasic
namespace Expression

open Attempt (Meets Sustains)
open Climbing (Folding folding_foldAll ne_absent_of_priority)

variable {H α : Type} {calculator : BoundedStack Pending}

/-- A step leaves the stack as it is, whether it ends well or not. -/
abbrev Stacked (calculator : BoundedStack Pending) (step : Attempt (Desk H) α) : Prop :=
  Sustains (fun desk : Desk H => desk.calculator = calculator) step fun _ => True

theorem stacked_of_same {step : Attempt (Desk H) α}
    (same : ∀ desk, (step desk).2.calculator = desk.calculator) : Stacked calculator step := by
  intro desk start
  have kept := (same desk).trans start
  generalize step desk = outcome at kept ⊢
  rcases outcome with ⟨fault | value, changed⟩
  · exact kept
  · exact ⟨trivial, kept⟩

theorem stacked_scanning (step : Attempt Scanner α) :
    Stacked calculator (Desk.scanning step : Attempt (Desk H) α) :=
  stacked_of_same fun _ => rfl

theorem stacked_consulting (step : Attempt H α) : Stacked calculator (Desk.consulting step) :=
  stacked_of_same fun _ => rfl

theorem stacked_pure (value : α) : Stacked calculator (pure value : Attempt (Desk H) α) :=
  Attempt.sustains_pure trivial

theorem stacked_throw (fault : Fault) : Stacked calculator (throw fault : Attempt (Desk H) α) :=
  Attempt.sustains_throw fault

theorem stacked_readName :
    Stacked calculator (Desk.readName : Attempt (Desk H) (Name × NameUse)) :=
  Attempt.sustains_get.bind fun _ _ => (stacked_scanning _).bind fun _ _ => stacked_pure _

/-! ## Operands -/

section
variable [Console H] (environment : Environment) (mode : Mode) {nested : Attempt (Desk H) Value}
  (stacked : Stacked calculator nested)
include stacked

omit [Console H] in
theorem stacked_number : Stacked calculator (number nested) := by
  refine stacked.bind fun value _ => ?_
  cases value with
  | number value => exact stacked_pure value
  | text codes => exact stacked_throw .syntaxError

omit [Console H] in
theorem stacked_subscript : Stacked calculator (subscript nested) :=
  (stacked_scanning _).bind fun _ _ => (stacked_number stacked).bind fun _ _ =>
    (stacked_scanning _).bind fun _ _ => stacked_pure _

omit [Console H] in
theorem stacked_subscriptOf (use : NameUse) : Stacked calculator (subscriptOf nested use) := by
  cases use with
  | array => exact stacked_subscript stacked
  | text => exact (stacked_scanning _).bind fun _ _ => stacked_pure 0
  | number | textFunction => exact stacked_pure 0

omit [Console H] in
theorem stacked_argument (function : Function) :
    Stacked calculator (argument nested function) := by
  unfold argument
  split
  · refine (stacked_scanning _).bind fun _ _ => stacked.bind fun value _ =>
      (stacked_scanning _).bind fun _ _ => ?_
    split
    · exact stacked_pure value
    · exact stacked_throw .syntaxError
  · exact stacked_pure _

theorem stacked_callFunction (function : Function) :
    Stacked calculator (callFunction environment mode nested function) := by
  rw [callFunction_eq]
  exact (stacked_argument stacked function).bind fun _ _ => stacked_consulting _

theorem stacked_reference : Stacked calculator (reference environment mode nested) := by
  rw [reference_eq]
  refine stacked_readName.bind fun (name, use) _ => ?_
  dsimp only
  cases Function.ofName? name use with
  | some function =>
      have called := stacked_callFunction environment mode stacked function
      refine (stacked_scanning _).bind fun _ _ => ?_
      split
      · exact (stacked_scanning _).bind fun _ _ => called
      · exact called
  | none =>
      dsimp only
      split
      · exact stacked_throw .syntaxError
      · exact (stacked_scanning _).bind fun _ _ => (stacked_subscriptOf stacked use).bind
          fun _ _ => (Attempt.sustains_ofExcept fun _ _ => trivial).bind
            fun _ (_ : True) => (stacked_scanning _).bind fun _ _ => stacked_pure _

theorem stacked_operand (code : Code) :
    Stacked calculator (operand environment mode nested code) := by
  unfold operand
  split
  · exact (stacked_scanning _).bind fun _ _ => stacked_pure _
  · split
    · exact (stacked_scanning _).bind fun _ _ => stacked_pure _
    · split
      · exact (stacked_scanning _).bind fun _ _ => stacked.bind fun _ _ =>
          (stacked_scanning _).bind fun _ _ => stacked_pure _
      · split
        · exact stacked_reference environment mode stacked
        · exact stacked_throw .syntaxError

end

theorem stacked_readOperator :
    Stacked calculator (readOperator : Attempt (Desk H) Operator) := by
  refine (stacked_scanning _).bind fun code _ => ?_
  dsimp only
  split
  · exact (stacked_scanning _).bind fun _ _ => stacked_pure _
  · exact stacked_pure _

/-! ## Down to the sentinel -/

/-- A stack inside of an evaluation: operations above the sentinel that it opened with. -/
def Opened (base items : List Pending) : Prop :=
  ∃ above, (∀ pending ∈ above, pending.operator ≠ .absent) ∧
    items = above ++ Pending.sentinel :: base

variable {base items : List Pending}

theorem Opened.push (opened : Opened base items) {pending : Pending}
    (present : pending.operator ≠ .absent) : Opened base (pending :: items) := by
  obtain ⟨above, others, rfl⟩ := opened
  exact ⟨pending :: above, List.forall_mem_cons.mpr ⟨present, others⟩, rfl⟩

/-- What folding comes to leaves the stack below the sentinel, or has not come down to it. -/
def DownTo (base : List Pending) (operator : Operator) : Except Fault Folded → Prop
  | .error _ => True
  | .ok (.ended _ below) => below = base
  | .ok (.waiting _ stack) => Opened base stack ∧ operator ≠ .absent

theorem downTo_of_folding {environment : Environment} {mode : Mode} {operator : Operator}
    {above : List Pending} {value : Value} {folded : Except Fault Folded}
    (folding : Folding environment mode base operator above value folded)
    (present : ∀ pending ∈ above, pending.operator ≠ .absent) : DownTo base operator folded := by
  induction folding with
  | waits tighter => exact ⟨⟨_, present, rfl⟩, ne_absent_of_priority tighter⟩
  | ends _ => rfl
  | fails _ _ => trivial
  | folds _ _ _ inductionHypothesis =>
      exact inductionHypothesis (List.forall_mem_cons.mp present).2

theorem downTo_foldAll (environment : Environment) (mode : Mode) (operator : Operator)
    (opened : Opened base items) (value : Value) :
    DownTo base operator (foldAll environment mode operator items value) := by
  obtain ⟨above, present, rfl⟩ := opened
  exact downTo_of_folding (folding_foldAll environment mode base operator present value) present

/-! ## Evaluations -/

/-- A desk inside of an evaluation that found a stack. -/
structure Inside (base : BoundedStack Pending) (desk : Desk H) : Prop where
  capacity : desk.calculator.capacity = base.capacity
  opened : Opened base.items desk.calculator.items

/-- A desk that may have something on top of a stack. -/
def Topped (base : BoundedStack Pending) (desk : Desk H) : Prop :=
  ∃ above, desk.calculator = { base with items := above ++ base.items }

/-- An evaluation that ends well takes off what it put on a stack, and one that fails may not. -/
abbrev Unwinds (base : BoundedStack Pending) : Except Fault Value × Desk H → Prop :=
  Meets (fun _ later => later.calculator = base) fun _ later => Topped base later

namespace Inside

variable {base : BoundedStack Pending} {desk : Desk H}

theorem topped (inside : Inside base desk) : Topped base desk := by
  obtain ⟨above, _, items⟩ := inside.opened
  refine ⟨above ++ [Pending.sentinel], ?_⟩
  rw [List.append_assoc, List.singleton_append, ← items, ← inside.capacity]

theorem meets_step (inside : Inside base desk) {step : Attempt (Desk H) α}
    (stacked : ∀ calculator, Stacked calculator step) :
    Meets (fun _ later => Inside base later) (fun _ later => Topped base later) (step desk) := by
  have kept := stacked desk.calculator desk rfl
  have inside {later : Desk H} (same : later.calculator = desk.calculator) : Inside base later :=
    ⟨by rw [same, inside.capacity], by rw [same]; exact inside.opened⟩
  generalize step desk = outcome at kept ⊢
  rcases outcome with ⟨fault | value, later⟩
  · exact (inside kept).topped
  · exact inside kept.2

theorem meets_push (inside : Inside base desk) {pending : Pending}
    (present : pending.operator ≠ .absent) :
    Meets (fun _ later => Inside base later) (fun _ later => Topped base later)
      (Desk.push pending desk) := by
  rw [Desk.push_apply]
  cases pushed : desk.calculator.push pending with
  | error fault => exact inside.topped
  | ok calculator =>
      obtain ⟨_, rfl⟩ := BoundedStack.push_eq_ok_iff.mp pushed
      exact ⟨inside.capacity, inside.opened.push present⟩

end Inside

section
variable [Console H] (environment : Environment) (mode : Mode)

theorem unwinds_operations {nested : Attempt (Desk H) Value}
    (stacked : ∀ calculator, Stacked calculator nested) (turns : Nat)
    {base : BoundedStack Pending} {desk : Desk H} (inside : Inside base desk) :
    Unwinds base (operations environment mode nested turns desk) := by
  induction turns generalizing desk with
  | zero => exact inside.topped
  | succ turns inductionHypothesis =>
      have further {pending : Pending} (present : pending.operator ≠ .absent) {later : Desk H}
          (inside : Inside base later) : Unwinds base
            ((do Desk.push pending; operations environment mode nested turns) later) :=
        (inside.meets_push present).bind fun _ _ inside => inductionHypothesis inside
      refine (inside.meets_step fun _ => stacked_scanning _).bind fun code reached inside => ?_
      cases unary : Pending.ofCode? code with
      | some pending =>
          exact (inside.meets_step fun _ => stacked_scanning _).bind fun _ _ inside =>
            further (Climbing.ofCode?_inLine unary).2 inside
      | none =>
          refine (inside.meets_step fun _ => stacked_operand environment mode (stacked _) code).bind
            fun value reached inside => ?_
          refine (inside.meets_step fun _ => stacked_readOperator).bind
            fun operator later inside => ?_
          have folded := downTo_foldAll environment mode operator inside.opened value
          rw [Attempt.bind_apply, Attempt.get_apply]
          dsimp only
          generalize foldAll environment mode operator later.calculator.items value = result
            at folded ⊢
          rcases result with fault | ⟨result, below⟩ | ⟨result, stack⟩
          · exact inside.topped
          · obtain rfl : below = base.items := folded
            change BoundedStack.mk later.calculator.capacity base.items = base
            rw [inside.capacity]
          · have waiting : Inside base
                { later with calculator := { later.calculator with items := stack } } :=
              ⟨inside.capacity, folded.1⟩
            exact further folded.2 waiting

/-- An evaluation leaves the stack as it found it. -/
theorem stacked_evaluateWithin (levels : Nat) (calculator : BoundedStack Pending) :
    Stacked calculator
      (evaluateWithin environment mode levels : Attempt (Desk H) Value) := by
  induction levels generalizing calculator with
  | zero => exact stacked_throw .outOfMemory
  | succ levels inductionHypothesis =>
      rintro desk rfl
      have unwinds : Unwinds desk.calculator
          ((do
            Desk.push .sentinel
            let desk ← get
            operations environment mode (evaluateWithin environment mode levels)
              (desk.scanner.rest.length + 1)) desk) := by
        rw [Attempt.bind_apply, Desk.push_apply]
        cases pushed : desk.calculator.push .sentinel with
        | error fault => exact ⟨[], rfl⟩
        | ok calculator =>
            obtain ⟨_, rfl⟩ := BoundedStack.push_eq_ok_iff.mp pushed
            exact unwinds_operations environment mode inductionHypothesis _ ⟨rfl, [], by simp, rfl⟩
      unfold evaluateWithin Desk.restoring
      generalize (do
        Desk.push .sentinel
        let desk ← get
        operations environment mode (evaluateWithin environment mode levels)
          (desk.scanner.rest.length + 1) : Attempt (Desk H) Value) desk = outcome at unwinds ⊢
      rcases outcome with ⟨fault | value, later⟩
      · obtain ⟨above, left⟩ := unwinds
        change later.calculator.truncate desk.calculator.length = desk.calculator
        rw [left, BoundedStack.truncate, BoundedStack.length]
        simp
      · exact ⟨trivial, unwinds⟩

end

end Expression
end HomeBasic
