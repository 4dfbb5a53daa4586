import HomeBasic.Expression
import HomeBasic.Proofs.Attempt.Repeats

/-!
# Turns of an expression

An expression is read in turns. In each of them a sign is put on the stack, or an operand is read
with the operator behind it, and then pending operations are folded one after the other. These are
the turns of `operations` and of `foldAll`.

Main statements: `operations` takes its turn and goes on with one turn less
(`operations_succ_eq_turn`), and folding a stack is to repeat the turn that folds one operation
(`repeats_foldAll`).
-/

namespace HomeBasic
namespace Expression

variable {H : Type}

/-- What is done with the stack that folding left. -/
def settle (operator : Operator) : Except Fault Folded → Attempt (Desk H) (Option Value)
  | .error fault => throw fault
  | .ok (.ended result below) => do
      modify fun desk => { desk with calculator := { desk.calculator with items := below } }
      return some result
  | .ok (.waiting result stack) => do
      modify fun desk => { desk with calculator := { desk.calculator with items := stack } }
      Desk.push ⟨result, operator, operator.priority⟩
      return none

variable [Console H] (environment : Environment) (mode : Mode)

/-- A turn of an expression, with folding as a step of its own. -/
theorem operations_succ (nested : Attempt (Desk H) Value) (turns : Nat) :
    operations environment mode nested (turns + 1) = (do
      let code ← Desk.look
      match Pending.ofCode? code with
      | some pending => do
          Desk.advance
          Desk.push pending
          operations environment mode nested turns
      | none => do
          let value ← operand environment mode nested code
          let operator ← readOperator
          let desk ← get
          match ← settle operator
              (foldAll environment mode operator desk.calculator.items value) with
          | some result => return result
          | none => operations environment mode nested turns) := by
  rw [operations]
  refine bind_congr fun code => ?_
  cases Pending.ofCode? code with
  | some pending => rfl
  | none =>
      refine bind_congr fun value => bind_congr fun operator => ?_
      funext desk
      rw [Attempt.bind_apply, Attempt.bind_apply, Attempt.get_apply]
      dsimp only
      rcases foldAll environment mode operator desk.calculator.items value with
        fault | ⟨result, below⟩ | ⟨result, stack⟩
      · rfl
      · rfl
      · simp only [settle, bind_assoc, pure_bind]
        rfl

/-- A sign in front of an operand is put on the stack, or an operand is read with the operator
behind it, and the operations are folded that bind at least as tightly. -/
def operationsTurn (nested : Attempt (Desk H) Value) (_ : Unit) :
    Attempt (Desk H) (Unit ⊕ Value) := do
  let code ← Desk.look
  match Pending.ofCode? code with
  | some pending => do
      Desk.advance
      Desk.push pending
      return .inl ()
  | none => do
      let value ← operand environment mode nested code
      let operator ← readOperator
      let desk ← get
      match ← settle operator (foldAll environment mode operator desk.calculator.items value) with
      | some result => return .inr result
      | none => return .inl ()

theorem operations_succ_eq_turn (nested : Attempt (Desk H) Value) (turns : Nat) :
    operations environment mode nested (turns + 1) =
      operationsTurn environment mode nested () >>=
        Attempt.after fun _ => operations environment mode nested turns := by
  rw [operations_succ, operationsTurn, bind_assoc]
  refine bind_congr fun code => ?_
  cases Pending.ofCode? code with
  | some pending => simp only [bind_assoc, pure_bind, Attempt.after]
  | none =>
      simp only [bind_assoc]
      refine bind_congr fun value => bind_congr fun operator => bind_congr fun desk =>
        bind_congr fun settled => ?_
      cases settled with
      | some result => rfl
      | none => rfl

/-- The topmost operation is folded, unless it binds less tightly than an operator or is the
sentinel. -/
def foldTurn (operator : Operator) :
    List Pending × Value → (List Pending × Value) ⊕ Except Fault Folded
  | ([], value) =>
      .inr (.ok (if 0 < operator.priority then .waiting value [] else .ended value []))
  | (pending :: stack, value) =>
      if pending.priority < operator.priority then
        .inr (.ok (.waiting value (pending :: stack)))
      else if pending.operator = .absent then
        .inr (.ok (.ended value stack))
      else
        match fold environment mode pending value with
        | .ok result => .inl (stack, result)
        | .error fault => .inr (.error fault)

/-- Folding takes an entry off the stack at every turn. -/
theorem repeats_foldAll (operator : Operator) (stack : List Pending) (value : Value) :
    Repeats (foldTurn environment mode operator) (stack, value)
      (foldAll environment mode operator stack value) := by
  induction stack generalizing value with
  | nil => exact .done rfl
  | cons pending stack inductionHypothesis =>
      rw [foldAll]
      by_cases waits : pending.priority < operator.priority
      · rw [if_pos waits]
        exact .done (if_pos waits)
      · by_cases ends : pending.operator = .absent
        · rw [if_neg waits, if_pos ends]
          exact .done (by rw [foldTurn, if_neg waits, if_pos ends])
        · rw [if_neg waits, if_neg ends]
          cases folded : fold environment mode pending value with
          | ok result =>
              refine .again ?_ (inductionHypothesis result)
              rw [foldTurn, if_neg waits, if_neg ends, folded]
          | error fault =>
              exact .done (by rw [foldTurn, if_neg waits, if_neg ends, folded])

end Expression
end HomeBasic
