import HomeBasic.Proofs.Expression.Climbing.Faults

/-!
# The stack of pending operations climbs

Evaluation with a stack of pending operations does what precedence climbing does.
The operations above the sentinel are what a climb has still to come back to: each
waits for its right side, and goes on with the operator that ends it (`complete`).

Main statement: an evaluation comes to what climbing comes to, and leaves the same
desk, unless it is out of memory, which it is not where there is room for an
operation and a level for every code left on the line.
-/

namespace HomeBasic
namespace Climbing

open Attempt (Agrees)

variable {H : Type} [Console H] (environment : Environment)

/-! ## Operands -/

section
variable (nested : Attempt (Desk H) Value)

omit [Console H] in
theorem subscript_eq : Expression.subscript nested = subscript nested := by
  simp only [Expression.subscript, Expression.number, subscript, bind_assoc]
  congr
  funext _
  congr
  funext value
  cases value <;> rfl

theorem callFunction_eq (function : Function) :
    Expression.callFunction environment .execute nested function =
      call environment nested function := by
  unfold Expression.callFunction call
  cases function.takesArgument with
  | false => rfl
  | true =>
      simp only [if_true]
      congr
      funext _
      congr
      funext argument
      congr
      funext _
      by_cases same : argument.isText = function.takesText
      · simp [same]
      · simp [same]

theorem reference_eq :
    Expression.reference environment .execute nested = named environment nested := by
  unfold Expression.reference named
  congr
  funext (name, use)
  dsimp only
  cases Function.ofName? name use with
  | some function => simp only [callFunction_eq]
  | none =>
      cases Function.isReserved name with
      | true => rfl
      | false => cases use <;> simp [fetch, subscript_eq, Attempt.ofExcept_map]

theorem operand_eq (code : Code) :
    Expression.operand environment .execute nested code = operand environment nested code := by
  unfold Expression.operand operand
  rw [reference_eq]

end

/-! ## What pending operations have still to come back to -/

/-- The priority that an operator has to exceed to wait on top of pending operations. -/
def minimum : List Pending → Nat
  | [] => 0
  | pending :: _ => pending.priority

/-- Gives the pending operations their right sides, the top one first. -/
def finish : List Pending → Value → Operator → Attempt (Desk H) Value
  | [], value, _ => pure value
  | pending :: stack, value, operator => do
      let result ← Attempt.ofExcept (combine environment pending.operator pending.value value)
      let (result, next) ← extending environment (minimum stack) result operator
      finish stack result next

/-- Goes on with an operand that an operator follows. -/
def resume (stack : List Pending) (value : Value) (operator : Operator) :
    Attempt (Desk H) Value := do
  let (value, operator) ← extending environment (minimum stack) value operator
  finish environment stack value operator

/-- Goes on where an operand is to follow. -/
def complete (stack : List Pending) : Attempt (Desk H) Value := do
  let (value, operator) ← climbing environment (minimum stack)
  finish environment stack value operator

theorem finish_cons (pending : Pending) (stack : List Pending) (value : Value)
    (operator : Operator) :
    (finish environment (pending :: stack) value operator : Attempt (Desk H) Value) =
      (do
        let result ← Attempt.ofExcept (combine environment pending.operator pending.value value)
        resume environment stack result operator) := rfl

theorem extending_eq (minimum : Nat) (value : Value) (operator : Operator) :
    (extending environment minimum value operator : Attempt (Desk H) _) =
      if operator.priority ≤ minimum then
        pure (value, operator)
      else (do
        let (right, next) ← climbing environment operator.priority
        let result ← Attempt.ofExcept (combine environment operator value right)
        extending environment minimum result next) := by
  funext desk
  rw [extending_apply]
  split <;> rfl

/-- An operator that binds no tighter than the top one lets it take its right side. -/
theorem resume_of_le (stack : List Pending) {operator : Operator}
    (looser : operator.priority ≤ minimum stack) (value : Value) :
    (resume environment stack value operator : Attempt (Desk H) Value) =
      finish environment stack value operator := by
  rw [resume, extending_eq, if_pos looser]
  rfl

/-- An operator that binds tighter than the top one waits on top of it. -/
theorem resume_of_lt (stack : List Pending) {operator : Operator}
    (tighter : minimum stack < operator.priority) (value : Value) :
    (resume environment stack value operator : Attempt (Desk H) Value) =
      complete environment (⟨value, operator, operator.priority⟩ :: stack) := by
  rw [resume, extending_eq, if_neg (Nat.not_le.mpr tighter)]
  simp [complete, finish, minimum]

/-- A sign in front of an operand waits on top of what is pending, and so does any operand. -/
theorem complete_eq (stack : List Pending) :
    (complete environment stack : Attempt (Desk H) Value) = (do
      let code ← Desk.look
      match Pending.ofCode? code with
      | some pending => do
          Desk.advance
          complete environment (pending :: stack)
      | none => do
          let value ← operand environment (evaluate environment) code
          let operator ← Expression.readOperator
          resume environment stack value operator) := by
  have climbs : (climbing environment (minimum stack) : Attempt (Desk H) _) = (do
      let code ← Desk.look
      let (value, operator) ← unary environment (climbing environment) code
      extending environment (minimum stack) value operator) :=
    funext fun desk => climbing_apply environment (minimum stack) desk
  rw [complete, climbs, bind_assoc]
  congr
  funext code
  unfold unary Pending.ofCode?
  by_cases minus : code = Code.minus
  · simp only [if_pos minus, signed, bind_assoc]
    rfl
  · by_cases not : code = Keyword.not.code
    · simp only [if_neg minus, if_pos not, signed, bind_assoc]
      rfl
    · simp only [if_neg minus, if_neg not, bind_assoc]
      rfl

/-! ## Folding down to a sentinel -/

theorem ne_absent_of_priority {operator : Operator} {priority : Nat}
    (tighter : priority < operator.priority) : operator ≠ .absent := by
  rintro rfl
  exact absurd tighter (Nat.not_lt_zero _)

/-- The turns of folding above a sentinel: the operator waits on top of what binds less tightly, or
ends the evaluation where nothing is left above the sentinel, or the top operation takes its right
side. -/
inductive Folding (mode : Mode) (base : List Pending) (operator : Operator) :
    List Pending → Value → Except Fault Expression.Folded → Prop
  | waits {above : List Pending} {value : Value} :
      minimum above < operator.priority →
      Folding mode base operator above value
        (.ok (.waiting value (above ++ Pending.sentinel :: base)))
  | ends {value : Value} :
      operator = .absent → Folding mode base operator [] value (.ok (.ended value base))
  | fails {pending : Pending} {above : List Pending} {value : Value} {fault : Fault} :
      operator.priority ≤ pending.priority →
      Expression.fold environment mode pending value = .error fault →
      Folding mode base operator (pending :: above) value (.error fault)
  | folds {pending : Pending} {above : List Pending} {value result : Value}
      {folded : Except Fault Expression.Folded} :
      operator.priority ≤ pending.priority →
      Expression.fold environment mode pending value = .ok result →
      Folding mode base operator above result folded →
      Folding mode base operator (pending :: above) value folded

theorem folding_foldAll (mode : Mode) (base : List Pending) (operator : Operator)
    {above : List Pending} (present : ∀ pending ∈ above, pending.operator ≠ .absent)
    (value : Value) :
    Folding environment mode base operator above value
      (Expression.foldAll environment mode operator (above ++ Pending.sentinel :: base)
        value) := by
  induction above generalizing value with
  | nil =>
      rw [List.nil_append, Expression.foldAll]
      by_cases tighter : Pending.sentinel.priority < operator.priority
      · rw [if_pos tighter]
        exact .waits tighter
      · rw [if_neg tighter, if_pos (show Pending.sentinel.operator = .absent from rfl)]
        exact .ends (Operator.priority_eq_zero_iff.mp (Nat.eq_zero_of_not_pos tighter))
  | cons pending above inductionHypothesis =>
      obtain ⟨first, others⟩ := List.forall_mem_cons.mp present
      rw [List.cons_append, Expression.foldAll]
      by_cases tighter : pending.priority < operator.priority
      · rw [if_pos tighter]
        exact .waits tighter
      · rw [if_neg tighter, if_neg first]
        cases folded : Expression.fold environment mode pending value with
        | error fault => exact .fails (Nat.le_of_not_lt tighter) folded
        | ok result =>
            exact .folds (Nat.le_of_not_lt tighter) folded (inductionHypothesis others result)

/-! ## Folding is coming back -/

theorem fold_eq (pending : Pending) (value : Value) :
    Expression.fold environment .execute pending value =
      combine environment pending.operator pending.value value := by
  rcases pending with ⟨left | left, operator, priority⟩ <;> rcases value with right | right
  · rfl
  · rfl
  · rfl
  · cases compared : operator.compareTexts left right <;>
      simp [Expression.fold, combine, compared, Except.map]

/-- What folding comes to is what the pending operations have still to come back to. -/
inductive Folds (base stack : List Pending) (operator : Operator) (value : Value)
    (desk : Desk H) : Except Fault Expression.Folded → Prop
  | ended (result : Value) :
      resume environment stack value operator desk = (.ok result, desk) →
      Folds base stack operator value desk (.ok (.ended result base))
  | waiting (result : Value) (above : List Pending) :
      operator ≠ .absent →
      (∀ pending ∈ above, pending.operator ≠ .absent) →
      above.length ≤ stack.length →
      resume environment stack value operator desk =
        complete environment (⟨result, operator, operator.priority⟩ :: above) desk →
      Folds base stack operator value desk
        (.ok (.waiting result (above ++ Pending.sentinel :: base)))
  | failed (fault : Fault) :
      resume environment stack value operator desk = (.error fault, desk) →
      Folds base stack operator value desk (.error fault)

/-- Where a folded operation goes on is where the others were to go on. -/
theorem Folds.push {base stack : List Pending} {pending : Pending} {operator : Operator}
    {value result : Value} {desk : Desk H} {folded : Except Fault Expression.Folded}
    (folds : Folds environment base stack operator result desk folded)
    (same : resume environment (pending :: stack) value operator desk =
      resume environment stack result operator desk) :
    Folds environment base (pending :: stack) operator value desk folded := by
  cases folds with
  | ended result comes => exact .ended result (same.trans comes)
  | waiting result above present waiting shorter comes =>
      exact .waiting result above present waiting (Nat.le_succ_of_le shorter) (same.trans comes)
  | failed fault comes => exact .failed fault (same.trans comes)

theorem Folding.comesBack {base stack : List Pending} {operator : Operator} {value : Value}
    {folded : Except Fault Expression.Folded}
    (folding : Folding environment .execute base operator stack value folded)
    (present : ∀ pending ∈ stack, pending.operator ≠ .absent) (desk : Desk H) :
    Folds environment base stack operator value desk folded := by
  induction folding with
  | @waits above value tighter =>
      exact .waiting value above (ne_absent_of_priority tighter) present (Nat.le_refl _)
        (congrFun (resume_of_lt environment above tighter value) desk)
  | @ends value absent =>
      subst absent
      have looser : Operator.absent.priority ≤ minimum [] := Nat.le_refl 0
      exact .ended value (congrFun (resume_of_le environment [] looser value) desk)
  | @fails pending above value fault looser failed =>
      refine .failed fault ?_
      rw [resume_of_le environment (pending :: above) looser, finish_cons, ← fold_eq, failed]
      rfl
  | @folds pending above value result folded looser folds _ inductionHypothesis =>
      obtain ⟨-, others⟩ := List.forall_mem_cons.mp present
      refine (inductionHypothesis others).push environment ?_
      rw [resume_of_le environment (pending :: above) looser, finish_cons, ← fold_eq, folds]
      rfl

/-! ## The stack in the middle of an evaluation -/

section
variable {environment} {mayRunOut : Prop} {α β : Type} {desk : Desk H} {stack : List Pending}

/-- The desk inside an evaluation that so many operations are pending in. -/
def opened (stack : List Pending) (desk : Desk H) : Desk H :=
  { desk with calculator :=
      { desk.calculator with items := stack ++ Pending.sentinel :: desk.calculator.items } }

/-- What comes out of an evaluation that was opened above so many operations. -/
def unwound (length : Nat) : Except Fault α × Desk H → Except Fault α × Desk H
  | (.ok value, reached) => (.ok value, reached)
  | (.error fault, reached) =>
      (.error fault, { reached with calculator := reached.calculator.truncate length })

omit [Console H] in
theorem restoring_apply (step : Attempt (Desk H) α) (desk : Desk H) :
    Desk.restoring step desk = unwound desk.calculator.length (step desk) := by
  unfold Desk.restoring unwound
  rcases step desk with ⟨fault | value, reached⟩ <;> rfl

omit [Console H] in
theorem unwound_error_opened (fault : Fault) (stack : List Pending) (desk : Desk H) :
    unwound desk.calculator.length ((.error fault, opened stack desk) : Except Fault α × Desk H) =
      (.error fault, desk) := by
  have above : (stack ++ Pending.sentinel :: desk.calculator.items).length -
      desk.calculator.items.length = (stack ++ [Pending.sentinel]).length := by
    simp only [List.length_append, List.length_cons, List.length_nil]
    omega
  simp only [unwound, opened, BoundedStack.truncate, BoundedStack.length, above]
  rw [List.append_cons stack Pending.sentinel desk.calculator.items, List.drop_left]

omit [Console H] in
/-- A step that has no use for the stack does the same inside an evaluation. -/
theorem agrees_step {left right : Attempt (Desk H) α} {onLeft onRight : α → Attempt (Desk H) β}
    (agrees : Agrees mayRunOut (left (opened stack desk)) (right (opened stack desk)))
    (ignores : Desk.Ignores right) (ahead : (right desk).2.Ahead desk)
    (rest : ∀ value later, right desk = (.ok value, later) →
      Agrees mayRunOut
        (unwound later.calculator.length (onLeft value (opened stack later)))
        (onRight value later)) :
    Agrees mayRunOut
      (unwound desk.calculator.length ((left >>= onLeft) (opened stack desk)))
      ((right >>= onRight) desk) := by
  rw [Attempt.bind_apply, Attempt.bind_apply]
  rcases agrees with ⟨may, out⟩ | same
  · generalize left (opened stack desk) = outcome at out ⊢
    rcases outcome with ⟨fault | value, reached⟩
    · obtain rfl : fault = .outOfMemory := by simpa using out
      exact .inl ⟨may, rfl⟩
    · simp at out
  · have inside : right (opened stack desk) = ((right desk).1, opened stack (right desk).2) := by
      rw [opened, ignores, opened, ahead.calculator]
    rw [same, inside, ← ahead.calculator]
    rcases run : right desk with ⟨fault | value, later⟩
    · exact .inr (unwound_error_opened fault stack later)
    · exact rest value later run

omit [Console H] in
theorem length_opened (stack : List Pending) (desk : Desk H) :
    (opened stack desk).calculator.length = stack.length + 1 + desk.calculator.length := by
  simp only [opened, BoundedStack.length, List.length_append, List.length_cons]
  omega

omit [Console H] in
theorem push_opened (pending : Pending) (stack : List Pending) (desk : Desk H) :
    Desk.push pending (opened stack desk) =
      if stack.length + 1 + desk.calculator.length < desk.calculator.capacity then
        (.ok (), opened (pending :: stack) desk)
      else
        (.error .outOfMemory, opened stack desk) := by
  rw [Desk.push_apply]
  unfold BoundedStack.push BoundedStack.isFull
  rw [length_opened]
  by_cases room : stack.length + 1 + desk.calculator.length < desk.calculator.capacity
  · have free : ¬(opened stack desk).calculator.capacity ≤
        stack.length + 1 + desk.calculator.length := Nat.not_le.mpr room
    simp only [if_pos room, decide_eq_true_eq, if_neg free]
    rfl
  · have full : (opened stack desk).calculator.capacity ≤
        stack.length + 1 + desk.calculator.length := Nat.le_of_not_lt room
    simp only [if_neg room, decide_eq_true_eq, if_pos full]

omit [Console H] in
theorem agrees_push {pending : Pending} {next : Unit → Attempt (Desk H) α} {length : Nat}
    {right : Except Fault α × Desk H}
    (room : ¬mayRunOut →
      stack.length + 1 + desk.calculator.length < desk.calculator.capacity)
    (rest : Agrees mayRunOut (unwound length (next () (opened (pending :: stack) desk))) right) :
    Agrees mayRunOut (unwound length ((Desk.push pending >>= next) (opened stack desk)))
      right := by
  rw [Attempt.bind_apply, push_opened]
  by_cases free : stack.length + 1 + desk.calculator.length < desk.calculator.capacity
  · rw [if_pos free]
    exact rest
  · rw [if_neg free]
    exact .inl ⟨Classical.not_not.mp fun may => free (room may), rfl⟩

end

/-! ## Evaluation with a stack climbs -/

/-- There is room for every code that is left to open a level and to leave an operation pending. -/
def Roomy (levels : Nat) (desk : Desk H) : Prop :=
  desk.scanner.codesLeft < levels ∧
    desk.calculator.length + desk.scanner.codesLeft < desk.calculator.capacity

section
variable {environment} {mayRunOut : Prop} {levels : Nat}

theorem ofCode?_inLine {code : Code} {pending : Pending}
    (prefixed : Pending.ofCode? code = some pending) :
    code ≠ Code.newline ∧ pending.operator ≠ .absent := by
  unfold Pending.ofCode? at prefixed
  split at prefixed
  next minus =>
    cases prefixed
    exact ⟨by rw [minus]; decide, by decide⟩
  next =>
    split at prefixed
    next not =>
      cases prefixed
      exact ⟨by rw [not]; decide, by decide⟩
    next => cases prefixed

variable (environment mayRunOut levels) in
/-- So many turns do what the operations pending inside an evaluation have still to come back to.
A code that is taken up makes room for the operation that it may leave pending. -/
def TurnsAgree (turns : Nat) : Prop :=
  ∀ {stack : List Pending} {desk : Desk H}, (∀ pending ∈ stack, pending.operator ≠ .absent) →
    desk.scanner.codesLeft < turns →
    (¬mayRunOut → desk.scanner.codesLeft ≤ levels ∧
      stack.length + 1 + desk.calculator.length + desk.scanner.codesLeft ≤
        desk.calculator.capacity) →
    Agrees mayRunOut
      (unwound desk.calculator.length
        (Expression.operations environment .execute
          (Expression.evaluateWithin environment .execute levels) turns (opened stack desk)))
      (complete environment stack desk)

variable {turns : Nat} {stack : List Pending} {desk : Desk H} {pending : Pending}

/-- An operation that is left pending waits on top of the others. -/
theorem TurnsAgree.waits (agrees : TurnsAgree (H := H) environment mayRunOut levels turns)
    (present : pending.operator ≠ .absent)
    (waiting : ∀ pending ∈ stack, pending.operator ≠ .absent)
    (enough : desk.scanner.codesLeft < turns)
    (room : ¬mayRunOut → desk.scanner.codesLeft < levels ∧
      stack.length + 1 + desk.calculator.length + desk.scanner.codesLeft <
        desk.calculator.capacity) :
    Agrees mayRunOut
      (unwound desk.calculator.length ((Desk.push pending >>= fun _ =>
        Expression.operations environment .execute
          (Expression.evaluateWithin environment .execute levels) turns) (opened stack desk)))
      (complete environment (pending :: stack) desk) := by
  refine agrees_push (fun may => ?_) (agrees ?_ enough fun may => ?_)
  · have := room may
    omega
  · exact List.forall_mem_cons.mpr ⟨present, waiting⟩
  · have := room may
    rw [List.length_cons]
    omega

variable {scanner : Scanner}

theorem TurnsAgree.sign (agrees : TurnsAgree (H := H) environment mayRunOut levels turns)
    (waiting : ∀ pending ∈ stack, pending.operator ≠ .absent)
    (prefixed : Pending.ofCode? scanner.current = some pending)
    (enough : scanner.codesLeft < turns + 1)
    (room : ¬mayRunOut → scanner.codesLeft ≤ levels ∧
      stack.length + 1 + desk.calculator.length + scanner.codesLeft ≤ desk.calculator.capacity) :
    Agrees mayRunOut
      (unwound desk.calculator.length ((Desk.advance >>= fun _ => Desk.push pending >>= fun _ =>
        Expression.operations environment .execute
          (Expression.evaluateWithin environment .execute levels) turns)
        (opened stack { desk with scanner })))
      ((Desk.advance >>= fun _ => complete environment (pending :: stack))
        { desk with scanner }) := by
  obtain ⟨inLine, present⟩ := ofCode?_inLine prefixed
  have consumes : Desk.Consumes Desk.advance { desk with scanner } :=
    Desk.consumes_advance inLine
  refine agrees_step (.refl _) (.scanning _) consumes.ahead fun _ later run => ?_
  have past := consumes.past run
  have shorter := past.shorter
  have same := past.calculator
  dsimp only at shorter same
  refine agrees.waits present waiting (by omega) fun may => ?_
  have := room may
  rw [same]
  omega

variable (environment levels) in
/-- What a turn goes on with is told by folding, once an operand and the operator behind it are
read. -/
def foldBehind (turns : Nat) (value : Value) (operator : Operator) : Attempt (Desk H) Value := do
  let desk ← get
  match Expression.foldAll environment .execute operator desk.calculator.items value with
  | .error fault => throw fault
  | .ok (.ended result below) =>
      set { desk with calculator := { desk.calculator with items := below } }
      return result
  | .ok (.waiting result stack) =>
      set { desk with calculator := { desk.calculator with items := stack } }
      Desk.push ⟨result, operator, operator.priority⟩
      Expression.operations environment .execute
        (Expression.evaluateWithin environment .execute levels) turns

/-- To fold is to come back to the pending operations. -/
theorem TurnsAgree.folds (agrees : TurnsAgree (H := H) environment mayRunOut levels turns)
    (waiting : ∀ pending ∈ stack, pending.operator ≠ .absent)
    (enough : desk.scanner.codesLeft < turns)
    (room : ¬mayRunOut → desk.scanner.codesLeft < levels ∧
      stack.length + 1 + desk.calculator.length + desk.scanner.codesLeft <
        desk.calculator.capacity) (value : Value) (operator : Operator) :
    Agrees mayRunOut
      (unwound desk.calculator.length
        (foldBehind environment levels turns value operator (opened stack desk)))
      (resume environment stack value operator desk) := by
  have folds := (folding_foldAll environment .execute desk.calculator.items operator waiting
    value).comesBack environment waiting desk
  rw [foldBehind, Attempt.bind_apply, Attempt.get_apply]
  have items : (opened stack desk).calculator.items =
    stack ++ Pending.sentinel :: desk.calculator.items := rfl
  dsimp only
  rw [items]
  generalize Expression.foldAll environment .execute operator
    (stack ++ Pending.sentinel :: desk.calculator.items) value = folded at folds ⊢
  cases folds with
  | ended result comes =>
      rw [comes]
      exact .refl _
  | waiting result above present waiting fewer comes =>
      rw [comes]
      refine agrees.waits present waiting enough fun may => ?_
      have := room may
      omega
  | failed fault comes =>
      rw [comes]
      exact .inr (unwound_error_opened fault stack desk)

/-- What is nested in an operand is further on in the line, where there is still room for it. -/
theorem agrees_operand_opened {code : Code}
    (nested : ∀ later : Desk H, (¬mayRunOut → Roomy levels later) →
      Agrees mayRunOut (Expression.evaluateWithin environment .execute levels later)
        (evaluate environment later))
    (looked : desk.scanner.current = code)
    (room : ¬mayRunOut → desk.scanner.codesLeft ≤ levels ∧
      stack.length + 1 + desk.calculator.length + desk.scanner.codesLeft ≤
        desk.calculator.capacity) :
    Agrees mayRunOut
      (Expression.operand environment .execute
        (Expression.evaluateWithin environment .execute levels) code (opened stack desk))
      (operand environment (evaluate environment) code (opened stack desk)) := by
  rw [operand_eq]
  refine agrees_operand looked fun later past => nested later fun may => ?_
  have := room may
  have shorter := past.shorter
  have same := congrArg BoundedStack.capacity past.calculator
  have height := congrArg BoundedStack.length past.calculator
  rw [length_opened] at height
  dsimp only [opened] at shorter same height
  exact ⟨by omega, by omega⟩

theorem TurnsAgree.reads (agrees : TurnsAgree (H := H) environment mayRunOut levels turns)
    (nested : ∀ later : Desk H, (¬mayRunOut → Roomy levels later) →
      Agrees mayRunOut (Expression.evaluateWithin environment .execute levels later)
        (evaluate environment later))
    (waiting : ∀ pending ∈ stack, pending.operator ≠ .absent)
    (enough : scanner.codesLeft < turns + 1)
    (room : ¬mayRunOut → scanner.codesLeft ≤ levels ∧
      stack.length + 1 + desk.calculator.length + scanner.codesLeft ≤ desk.calculator.capacity) :
    Agrees mayRunOut
      (unwound desk.calculator.length ((do
        let value ← Expression.operand environment .execute
          (Expression.evaluateWithin environment .execute levels) scanner.current
        let operator ← Expression.readOperator
        foldBehind environment levels turns value operator : Attempt (Desk H) Value)
          (opened stack { desk with scanner })))
      ((do
        let value ← operand environment (evaluate environment) scanner.current
        let operator ← Expression.readOperator
        resume environment stack value operator) { desk with scanner }) := by
  have consumes : Desk.Consumes (operand environment (evaluate environment) scanner.current)
      { desk with scanner } :=
    consumes_operand (moves_evaluate environment) rfl
  refine agrees_step (agrees_operand_opened nested rfl room)
    (ignores_operand (ignores_evaluate environment) _) consumes.ahead fun value read run => ?_
  have past := consumes.past run
  apply agrees_step (.refl _) ignores_readOperator (moves_readOperator read)
  intro operator later run
  have beyond := (moves_readOperator.ahead run).trans_past past
  have shorter := beyond.shorter
  have same := beyond.calculator
  dsimp only at shorter same
  refine agrees.folds waiting (by omega) (fun may => ?_) value operator
  have := room may
  rw [same]
  omega

theorem turnsAgree (turns : Nat)
    (nested : ∀ later : Desk H, (¬mayRunOut → Roomy levels later) →
      Agrees mayRunOut (Expression.evaluateWithin environment .execute levels later)
        (evaluate environment later)) :
    TurnsAgree (H := H) environment mayRunOut levels turns := by
  induction turns with
  | zero => exact fun _ enough => absurd enough (Nat.not_lt_zero _)
  | succ turns inductionHypothesis =>
      intro stack desk waiting enough room
      rw [complete_eq, Expression.operations]
      refine agrees_step (.refl _) (.scanning _) (Desk.moves_look desk) fun code looked run => ?_
      rw [Desk.look_apply] at run
      cases run
      have bound := desk.scanner.follows_look.codesLeft_le
      generalize desk.scanner.look = scanner at bound ⊢
      have fits : ¬mayRunOut → scanner.codesLeft ≤ levels ∧
          stack.length + 1 + desk.calculator.length + scanner.codesLeft ≤
            desk.calculator.capacity := by
        intro may
        have := room may
        omega
      cases prefixed : Pending.ofCode? scanner.current with
      | some pending => exact inductionHypothesis.sign waiting prefixed (by omega) fits
      | none => exact inductionHypothesis.reads nested waiting (by omega) fits

/-- An evaluation opens a level, puts its sentinel on the stack and takes its turns. -/
theorem agrees_evaluateWithin (levels : Nat) {desk : Desk H}
    (roomy : ¬mayRunOut → Roomy levels desk) :
    Agrees mayRunOut (Expression.evaluateWithin environment .execute levels desk)
      (evaluate environment desk) := by
  induction levels generalizing desk with
  | zero =>
      have may : mayRunOut := Classical.not_not.mp fun may => Nat.not_lt_zero _ (roomy may).1
      exact .inl ⟨may, rfl⟩
  | succ levels inductionHypothesis =>
      have whole : evaluate environment desk = complete environment [] desk := by
        rw [evaluate_eq]
        rfl
      rw [Expression.evaluateWithin, restoring_apply, whole, Attempt.bind_apply, Desk.push_apply]
      unfold BoundedStack.push BoundedStack.isFull
      by_cases free : desk.calculator.capacity ≤ desk.calculator.length
      · have may : mayRunOut := by
          refine Classical.not_not.mp fun may => ?_
          have := (roomy may).2
          omega
        rw [if_pos (decide_eq_true free)]
        exact .inl ⟨may, rfl⟩
      · rw [if_neg (by simpa using free)]
        have enough := desk.scanner.codesLeft_le_length
        change Agrees mayRunOut (unwound desk.calculator.length
          (Expression.operations environment .execute
            (Expression.evaluateWithin environment .execute levels)
            (desk.scanner.rest.length + 1) (opened [] desk))) _
        refine turnsAgree _ (fun later room => inductionHypothesis room) (by simp) (by omega)
          fun may => ?_
        have := roomy may
        unfold Roomy at this
        exact ⟨by omega, by rw [List.length_nil]; omega⟩

end

/--
An evaluation comes to what climbing comes to and leaves the same desk behind, unless
it is out of memory. Climbing itself never is, and where there is room enough for what
is left of the line, neither is the evaluation.
-/
theorem evaluateWithin_eq_evaluate (levels : Nat) (desk : Desk H) :
    ((Expression.evaluateWithin environment .execute levels desk).1 ≠ .error .outOfMemory →
      Expression.evaluateWithin environment .execute levels desk = evaluate environment desk) ∧
    (Roomy levels desk →
      Expression.evaluateWithin environment .execute levels desk = evaluate environment desk) ∧
    (environment.valFault ≠ .outOfMemory →
      (evaluate environment desk).1 ≠ .error .outOfMemory) := by
  refine ⟨fun remembered => ?_, fun roomy => ?_, fun otherwise failed => ?_⟩
  · have agrees : Agrees True (Expression.evaluateWithin environment .execute levels desk)
        (evaluate environment desk) :=
      agrees_evaluateWithin levels fun may => absurd trivial may
    exact agrees.resolve_left fun lost => remembered lost.2
  · exact (agrees_evaluateWithin levels fun _ => roomy).eq
  · rcases confined_evaluate desk _ failed with ill | raised
    · cases ill
    · generalize same : Fault.outOfMemory = fault at raised
      cases raised with
      | noNumber => exact otherwise same.symm
      | overflow | notFound | outOfRange => cases same

/-- A desk at `7*-2**2+NOT 5`, with signs on the right of tighter operators. -/
def signsAhead : Desk NoConsole where
  scanner := Scanner.ofBytes
    [Code.zero + 7, Code.star, Code.minus, Code.zero + 2, Keyword.power.code, Code.zero + 2,
      Code.plus, Keyword.not.code, Code.zero + 5, Code.newline] 0
  calculator := .empty 24
  console := ⟨⟩

theorem evaluateWithin_signsAhead :
    Roomy 16 signsAhead ∧
      (Expression.evaluateWithin (Environment.blank {}) .execute 16
        signsAhead).1.toOption = some (.number (-34)) := by
  have roomy : Roomy 16 signsAhead := by
    unfold Roomy
    decide
  refine ⟨roomy, ?_⟩
  rw [(evaluateWithin_eq_evaluate (Environment.blank {}) 16 signsAhead).2.1 roomy]
  decide +kernel

end Climbing

/-- An evaluation that has a value has moved on over codes of the line. -/
theorem Expression.follows_evaluate {H : Type} [Console H] {environment : Environment}
    {desk later : Desk H} {value : Value}
    (run : Expression.evaluate environment .execute desk = (.ok value, later)) :
    later.scanner.Follows desk.scanner := by
  have agrees : Attempt.Agrees True (Expression.evaluate environment .execute desk)
      (Climbing.evaluate environment desk) :=
    Climbing.agrees_evaluateWithin _ fun may => absurd trivial may
  rw [run] at agrees
  have same := agrees.resolve_left fun lost => nomatch lost.2
  have ahead := Climbing.moves_evaluate environment desk
  rw [← same] at ahead
  exact ahead.follows

end HomeBasic
