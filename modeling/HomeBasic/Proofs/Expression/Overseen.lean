import HomeBasic.Proofs.Console.Overseen
import HomeBasic.Proofs.Expression.Stack
import HomeBasic.Proofs.Expression.Turns

/-!
# What an evaluation touches of the stack

Evaluations share one stack, and one register of how many of them are under way. Here they are
written with single steps of the stack, at a desk whose console keeps that register and records
every entry that an evaluation looks at or takes off (`Oversight.evaluate`). An evaluation may as
well find any other entries below its own: as long as there is the same room above them, it comes
to the same.

Main statement: however an evaluation ends, the stack and the register are what they were before,
nothing below a sentinel was touched, and apart from its oversight it is the evaluation of an
expression with as many levels as are left (`Oversight.restores_evaluate`).
-/

namespace HomeBasic
namespace Expression

open Attempt (Ends Mirrored mirrored_pure mirrored_throw)
open Climbing (ne_absent_of_priority)
open Overseen (Heeds)

namespace Oversight

variable {H α : Type}

/-! ## Overseen evaluations -/

/-- Looks at the topmost entry. -/
def last (base : Nat) : Attempt (Desk (Overseen H)) (Option Pending) := fun desk =>
  match desk.calculator.items with
  | [] => (.ok none, desk)
  | pending :: below =>
      (.ok (some pending), { desk with console := desk.console.note [⟨base, below.length⟩] })

/-- Takes the topmost entry off. -/
def pop (base : Nat) : Attempt (Desk (Overseen H)) (Option Pending) := fun desk =>
  match desk.calculator.items with
  | [] => (.ok none, desk)
  | pending :: below =>
      (.ok (some pending), { desk with
        calculator := { desk.calculator with items := below }
        console := desk.console.note [⟨base, below.length⟩] })

/-- Takes off what is above as many entries as there were. -/
def truncate (base : Nat) (desk : Desk (Overseen H)) : Desk (Overseen H) :=
  { desk with
    calculator := desk.calculator.truncate base
    console := desk.console.note
      ((List.range' base (desk.calculator.length - base)).map (Touch.mk base)) }

/-- An evaluation ends, and if it failed, what it left on the stack is taken off. -/
def conclude (base : Nat) :
    Except Fault Value × Desk (Overseen H) → Except Fault Value × Desk (Overseen H)
  | (.ok value, reached) => (.ok value, { reached with console := reached.console.leave })
  | (.error fault, reached) =>
      (.error fault, truncate base { reached with console := reached.console.leave })

section
variable [Console H] (environment : Environment) (mode : Mode)

/-- Folds pending operations, the topmost first, until one binds less tightly than an operator.
The operand is then put on the stack with the operator; at the sentinel it is the result. -/
def unwind (base : Nat) (operator : Operator) :
    (turns : Nat) → Value → Attempt (Desk (Overseen H)) (Option Value)
  | 0, _ => throw .syntaxError
  | turns + 1, value => do
      let top ← last base
      if top.elim 0 (·.priority) < operator.priority then do
        Desk.push ⟨value, operator, operator.priority⟩
        return none
      else
        match ← pop base with
        | none => return some value
        | some pending =>
            if pending.operator = .absent then
              return some value
            else do
              let result ← Attempt.ofExcept (fold environment mode pending value)
              unwind base operator turns result

/-- Reads operands and operators in turn up to the end of the expression. -/
def expression (base : Nat) (nested : Attempt (Desk (Overseen H)) Value) :
    (turns : Nat) → Attempt (Desk (Overseen H)) Value
  | 0 => throw .syntaxError
  | turns + 1 => do
      let code ← Desk.look
      match Pending.ofCode? code with
      | some pending =>
          Desk.advance
          Desk.push pending
          expression base nested turns
      | none =>
          let value ← operand environment mode nested code
          let operator ← readOperator
          let desk ← get
          match ← unwind environment mode base operator (desk.calculator.length + 1) value with
          | some result => return result
          | none => expression base nested turns

/-- Evaluates the expression at the scanner, unless too many evaluations are under way. -/
def oversee : (levels : Nat) → Attempt (Desk (Overseen H)) Value
  | 0 => throw .outOfMemory
  | levels + 1 => fun desk =>
      if environment.config.maxNesting ≤ desk.console.depth then
        (.error .outOfMemory, desk)
      else
        let base := desk.calculator.length
        conclude base <|
          (do
            Desk.push .sentinel
            let desk ← get
            expression environment mode base (oversee levels) (desk.scanner.rest.length + 1))
          { desk with console := desk.console.enter }

/-- Evaluates the expression at the scanner, inside which as many more may be opened as are
not under way. -/
def evaluate : Attempt (Desk (Overseen H)) Value := fun desk =>
  oversee environment mode (environment.config.maxNesting - desk.console.depth) desk

end

/-! ## Steps that leave the stack alone -/

/-- A desk that is not overseen, and that has another stack. -/
def onStack (desk : Desk (Overseen H)) (stack : BoundedStack Pending) : Desk H :=
  ⟨desk.scanner, stack, desk.console.console⟩

/-- Two desks that have the stacks they had at a start. -/
structure Level (found under : BoundedStack Pending) (start : Overseen H)
    (desk : Desk (Overseen H)) (plain : Desk H) : Prop where
  plain : plain = onStack desk under
  calculator : desk.calculator = found
  heeds : Heeds found.length start desk.console

variable {found under : BoundedStack Pending} {start : Overseen H}

/-- Two steps do the same, and both leave their stacks alone. -/
abbrev Levelled (found under : BoundedStack Pending) (start : Overseen H)
    (step : Attempt (Desk (Overseen H)) α) (plain : Attempt (Desk H) α) : Prop :=
  Mirrored (Level found under start) step plain (Level found under start)

theorem levelled_scanning (step : Attempt Scanner α) :
    Levelled found under start (Desk.scanning step) (Desk.scanning step) := by
  rintro desk _ ⟨rfl, calculator, heeds⟩
  exact ⟨rfl, rfl, calculator, heeds⟩

theorem levelled_readName : Levelled found under start Desk.readName Desk.readName := by
  refine Attempt.mirrored_get fun desk plain level => ?_
  rw [show plain.scanner = desk.scanner by rw [level.plain]; rfl]
  exact (levelled_scanning _).bind fun _ => mirrored_pure _

section
variable [Console H] (environment : Environment) (mode : Mode)

theorem levelled_reply (function : Function) (argument : Value) :
    Levelled found under start (Desk.consulting (reply environment mode function argument))
      (Desk.consulting (reply environment mode function argument)) := by
  have replied (console : Overseen H) :
      Attempt.Matches (Overseen.Sees console.depth console.touched)
        (reply environment mode function argument console)
        (reply environment mode function argument console.console) := by
    cases mode with
    | check => exact ⟨rfl, rfl⟩
    | execute =>
        exact Function.mirrored_call (Overseen.kindred _ _) environment function argument _ _ rfl
  rintro desk _ ⟨rfl, calculator, heeds⟩
  have replied := replied desk.console
  simp only [Desk.consulting, Attempt.within_apply, onStack]
  generalize reply environment mode function argument desk.console = outcome at replied ⊢
  obtain ⟨result, seen⟩ := replied
  refine ⟨result, ?_, calculator, heeds.trans ?_⟩
  · rw [onStack, seen]
  · rw [seen]
    exact ⟨rfl, [], rfl, List.forall_mem_nil _⟩

variable {nested : Attempt (Desk (Overseen H)) Value} {bare : Attempt (Desk H) Value}
  (levelled : Levelled found under start nested bare)
include levelled

omit [Console H] in
theorem levelled_number : Levelled found under start (number nested) (number bare) := by
  refine levelled.bind fun value => ?_
  cases value with
  | number value => exact mirrored_pure value
  | text codes => exact mirrored_throw .syntaxError

omit [Console H] in
theorem levelled_subscriptOf (use : NameUse) :
    Levelled found under start (subscriptOf nested use) (subscriptOf bare use) := by
  cases use with
  | array =>
      exact (levelled_scanning _).bind fun _ => (levelled_number levelled).bind fun _ =>
        (levelled_scanning _).bind fun _ => mirrored_pure _
  | text => exact (levelled_scanning _).bind fun _ => mirrored_pure 0
  | number | textFunction => exact mirrored_pure 0

omit [Console H] in
theorem levelled_argument (function : Function) :
    Levelled found under start (argument nested function) (argument bare function) := by
  unfold argument
  split
  · refine (levelled_scanning _).bind fun _ => levelled.bind fun value =>
      (levelled_scanning _).bind fun _ => ?_
    split
    · exact mirrored_pure value
    · exact mirrored_throw .syntaxError
  · exact mirrored_pure _

theorem levelled_callFunction (function : Function) :
    Levelled found under start (callFunction environment mode nested function)
      (callFunction environment mode bare function) := by
  rw [callFunction_eq, callFunction_eq]
  exact (levelled_argument levelled function).bind fun _ => levelled_reply environment mode _ _

theorem levelled_reference :
    Levelled found under start (reference environment mode nested)
      (reference environment mode bare) := by
  rw [reference_eq, reference_eq]
  refine levelled_readName.bind fun (name, use) => ?_
  dsimp only
  cases Function.ofName? name use with
  | some function =>
      have called := levelled_callFunction environment mode levelled function
      refine (levelled_scanning _).bind fun _ => ?_
      split
      · exact (levelled_scanning _).bind fun _ => called
      · exact called
  | none =>
      dsimp only
      split
      · exact mirrored_throw .syntaxError
      · exact (levelled_scanning _).bind fun _ => (levelled_subscriptOf levelled use).bind
          fun _ => (Attempt.mirrored_ofExcept _).bind
            fun _ => (levelled_scanning _).bind fun _ => mirrored_pure _

theorem levelled_operand (code : Code) :
    Levelled found under start (operand environment mode nested code)
      (operand environment mode bare code) := by
  unfold operand
  split
  · exact (levelled_scanning _).bind fun _ => mirrored_pure _
  · split
    · exact (levelled_scanning _).bind fun _ => mirrored_pure _
    · split
      · exact (levelled_scanning _).bind fun _ => levelled.bind fun _ =>
          (levelled_scanning _).bind fun _ => mirrored_pure _
      · split
        · exact levelled_reference environment mode levelled
        · exact mirrored_throw .syntaxError

end

theorem levelled_readOperator :
    Levelled found under start (readOperator : Attempt (Desk (Overseen H)) Operator)
      readOperator := by
  refine (levelled_scanning _).bind fun code => ?_
  dsimp only
  split
  · exact (levelled_scanning _).bind fun _ => mirrored_pure _
  · exact mirrored_pure _

/-! ## Evaluations that are under way -/

/-- Two desks inside of evaluations that found a stack each, with the same operations above. -/
structure Underway (found under : BoundedStack Pending) (start : Overseen H)
    (above : List Pending) (desk : Desk (Overseen H)) (plain : Desk H) : Prop where
  present : ∀ pending ∈ above, pending.operator ≠ .absent
  calculator : desk.calculator = { found with items := above ++ Pending.sentinel :: found.items }
  plain : plain = onStack desk { under with items := above ++ Pending.sentinel :: under.items }
  heeds : Heeds found.length start desk.console

/-- Two desks with something left on the stacks that evaluations found. -/
structure Left (found under : BoundedStack Pending) (start : Overseen H)
    (desk : Desk (Overseen H)) (plain : Desk H) : Prop where
  calculator : Topped found desk
  under : Topped under plain
  plain : plain = onStack desk plain.calculator
  heeds : Heeds found.length start desk.console

/-- Two desks after operations were folded, down to the sentinel or not. -/
def Unwound (found under : BoundedStack Pending) (start : Overseen H) :
    Option Value → Desk (Overseen H) → Desk H → Prop
  | some _, desk, plain => Level found under start desk plain
  | none, desk, plain => ∃ above, Underway found under start above desk plain

variable {above : List Pending} {desk : Desk (Overseen H)} {plain : Desk H}

theorem Underway.left (underway : Underway found under start above desk plain) :
    Left found under start desk plain where
  calculator := ⟨above ++ [Pending.sentinel], by simp [underway.calculator]⟩
  under := ⟨above ++ [Pending.sentinel], by simp [underway.plain, onStack]⟩
  plain := by rw [underway.plain, onStack, onStack]
  heeds := underway.heeds

/-- What leaves the stack alone leaves evaluations under way. -/
theorem Underway.step (underway : Underway found under start above desk plain)
    {step : Attempt (Desk (Overseen H)) α} {bare : Attempt (Desk H) α}
    (levelled : Levelled desk.calculator plain.calculator desk.console step bare) :
    Ends (fun _ => Underway found under start above) (Left found under start)
      (step desk) (bare plain) := by
  have level : Level desk.calculator plain.calculator desk.console desk plain :=
    ⟨by rw [underway.plain, onStack, onStack], rfl, .refl _ _⟩
  have lower : found.length ≤ desk.calculator.length := by
    rw [underway.calculator]
    simp only [BoundedStack.length, List.length_append, List.length_cons]
    omega
  have further {reached : Desk (Overseen H)} {arrived : Desk H}
      (level : Level desk.calculator plain.calculator desk.console reached arrived) :
      Underway found under start above reached arrived :=
    ⟨underway.present, level.calculator.trans underway.calculator,
      by rw [level.plain, underway.plain, onStack, onStack, onStack],
      underway.heeds.trans (level.heeds.mono lower)⟩
  exact (levelled desk plain level).ends (fun _ _ => further)
    fun _ _ level => (further level).left

/-- There is room for an operation on both stacks or on none of them. -/
theorem ends_push {stack : BoundedStack Pending} (pending : Pending)
    (room : stack.capacity - stack.length = desk.calculator.capacity - desk.calculator.length) :
    Ends
      (fun _ reached arrived =>
        reached = { desk with calculator :=
          { desk.calculator with items := pending :: desk.calculator.items } } ∧
        arrived = onStack desk { stack with items := pending :: stack.items })
      (fun reached arrived => reached = desk ∧ arrived = onStack desk stack)
      (Desk.push pending desk) (Desk.push pending (onStack desk stack)) := by
  have full : (onStack desk stack).calculator.isFull = desk.calculator.isFull := by
    refine decide_eq_decide.mpr ?_
    change stack.capacity ≤ stack.length ↔ _
    omega
  rw [Desk.push_apply, Desk.push_apply, BoundedStack.push, BoundedStack.push, full]
  by_cases none : desk.calculator.isFull = true
  · rw [if_pos none, if_pos none]
    exact .error ⟨rfl, rfl⟩
  · rw [if_neg none, if_neg none]
    exact .ok ⟨rfl, rfl⟩

/-- Two evaluations that are under way have the same room left. -/
theorem Underway.room (underway : Underway found under start above desk plain)
    (room : under.capacity - under.length = found.capacity - found.length) :
    plain.calculator.capacity - plain.calculator.length =
      desk.calculator.capacity - desk.calculator.length := by
  rw [underway.plain, underway.calculator, onStack]
  simp only [BoundedStack.length, List.length_append, List.length_cons] at room ⊢
  omega

theorem Underway.push (underway : Underway found under start above desk plain)
    (room : under.capacity - under.length = found.capacity - found.length) {pending : Pending}
    (present : pending.operator ≠ .absent) :
    Ends (fun _ => Underway found under start (pending :: above)) (Left found under start)
      (Desk.push pending desk) (Desk.push pending plain) := by
  have pushed := ends_push pending (underway.room room)
  have left := underway.left
  rw [← left.plain] at pushed
  refine pushed.mono ?_ ?_
  · rintro _ _ _ ⟨rfl, rfl⟩
    obtain ⟨others, calculator, rfl, heeds⟩ := underway
    refine ⟨List.forall_mem_cons.mpr ⟨present, others⟩, ?_, rfl, heeds⟩
    rw [calculator, List.cons_append]
  · rintro _ _ ⟨rfl, rfl⟩
    exact left

theorem Left.over_items (left : Left found under start desk plain) (items : List Pending) :
    { plain with calculator := { plain.calculator with items } } =
      onStack desk { under with items } := by
  obtain ⟨_, rest⟩ := left.under
  rw [left.plain, onStack, onStack, rest]

theorem Left.note (left : Left found under start desk plain) {height : Nat}
    (above : found.length ≤ height) :
    Left found under start
      { desk with console := desk.console.note [⟨found.length, height⟩] } plain where
  calculator := left.calculator
  under := left.under
  plain := left.plain
  heeds := left.heeds.note (List.forall_mem_singleton.mpr ⟨Nat.le_refl _, above⟩)

/-- What stands on the sentinel does not reach below it. -/
theorem length_le_above (found : BoundedStack Pending) (above : List Pending) :
    found.length ≤ (above ++ Pending.sentinel :: found.items).length := by
  rw [BoundedStack.length, List.length_append, List.length_cons]
  omega

/-- The topmost entry above the sentinel may be looked at and taken off. -/
theorem Left.popped (left : Left found under start desk plain) {pending : Pending}
    (calculator : desk.calculator =
      { found with items := pending :: above ++ Pending.sentinel :: found.items }) :
    let touch : Touch := ⟨found.length, (above ++ Pending.sentinel :: found.items).length⟩
    Left found under start
      { desk with
        calculator := { desk.calculator with items := above ++ Pending.sentinel :: found.items }
        console := (desk.console.note [touch]).note [touch] } plain :=
  have touched := left.note (length_le_above found above)
  { touched.note (length_le_above found above) with
    calculator := ⟨above ++ [Pending.sentinel], by simp [calculator]⟩ }

section
variable [Console H] (environment : Environment) (mode : Mode)

omit [Console H] in
/-- A turn of folding, by the topmost entry. -/
theorem unwind_apply {base turns : Nat} {operator : Operator} {value : Value} {pending : Pending}
    {below : List Pending} (items : desk.calculator.items = pending :: below) :
    unwind environment mode base operator (turns + 1) value desk =
      let touched := { desk with console := desk.console.note [⟨base, below.length⟩] }
      let popped := { touched with
        calculator := { desk.calculator with items := below }
        console := touched.console.note [⟨base, below.length⟩] }
      if pending.priority < operator.priority then
        (do Desk.push ⟨value, operator, operator.priority⟩; return none) touched
      else if pending.operator = .absent then
        (.ok (some value), popped)
      else
        (do
          let result ← Attempt.ofExcept (fold environment mode pending value)
          unwind environment mode base operator turns result) popped := by
  have looked : last base desk =
      (.ok (some pending), { desk with console := desk.console.note [⟨base, below.length⟩] }) := by
    rw [last, items]
  rw [unwind, Attempt.bind_apply, looked]
  change (if pending.priority < operator.priority then _ else _ :
    Attempt (Desk (Overseen H)) (Option Value)) _ = _
  by_cases tighter : pending.priority < operator.priority
  · rw [if_pos tighter, if_pos tighter]
  · rw [if_neg tighter, if_neg tighter, Attempt.bind_apply, pop]
    simp only [items]
    split
    · rfl
    · rfl

omit [Console H] in
/-- The operand goes on the stack with an operator that binds more tightly. -/
theorem Left.ends_waiting (left : Left found under start desk plain)
    (room : under.capacity - under.length = found.capacity - found.length)
    (present : ∀ pending ∈ above, pending.operator ≠ .absent)
    (calculator : desk.calculator =
      { found with items := above ++ Pending.sentinel :: found.items })
    {operator : Operator} {priority : Nat} (tighter : priority < operator.priority)
    (value : Value) :
    Ends (Unwound found under start) (Left found under start)
      ((do Desk.push ⟨value, operator, operator.priority⟩; return none) desk)
      (settle operator (.ok (.waiting value (above ++ Pending.sentinel :: under.items)))
        plain) := by
  have underway : Underway found under start above desk
      { plain with calculator :=
        { plain.calculator with items := above ++ Pending.sentinel :: under.items } } :=
    ⟨present, calculator, left.over_items _, left.heeds⟩
  have present : (⟨value, operator, operator.priority⟩ : Pending).operator ≠ .absent :=
    ne_absent_of_priority tighter
  exact (underway.push room present).bind fun _ _ _ underway => .ok ⟨_, underway⟩

omit [Console H] in
/-- Folding one entry after another comes to what the folding of a stack comes to. -/
theorem Left.ends_unwind (left : Left found under start desk plain)
    (room : under.capacity - under.length = found.capacity - found.length)
    (present : ∀ pending ∈ above, pending.operator ≠ .absent)
    (calculator : desk.calculator =
      { found with items := above ++ Pending.sentinel :: found.items })
    (operator : Operator) {turns : Nat} (enough : above.length < turns) (value : Value) :
    Ends (Unwound found under start) (Left found under start)
      (unwind environment mode found.length operator turns value desk)
      (settle operator (foldAll environment mode operator
        (above ++ Pending.sentinel :: under.items) value) plain) := by
  obtain ⟨turns, rfl⟩ : ∃ fewer, turns = fewer + 1 := ⟨turns - 1, by omega⟩
  induction above generalizing turns value desk with
  | nil =>
      have items : desk.calculator.items = Pending.sentinel :: found.items := by
        rw [calculator]
        rfl
      have touched := left.note (Nat.le_refl found.length)
      rw [unwind_apply environment mode items, List.nil_append, foldAll]
      dsimp only
      by_cases tighter : Pending.sentinel.priority < operator.priority
      · rw [if_pos tighter, if_pos tighter]
        exact touched.ends_waiting room present calculator tighter value
      · have absent : Pending.sentinel.operator = .absent := rfl
        rw [if_neg tighter, if_neg tighter, if_pos absent, if_pos absent]
        refine .ok ⟨left.over_items under.items, ?_, (touched.note (Nat.le_refl _)).heeds⟩
        rw [calculator]
  | cons pending above inductionHypothesis =>
      obtain ⟨first, others⟩ := List.forall_mem_cons.mp present
      have items : desk.calculator.items =
          pending :: (above ++ Pending.sentinel :: found.items) := by
        rw [calculator]
        rfl
      rw [unwind_apply environment mode items, List.cons_append, foldAll]
      dsimp only
      by_cases tighter : pending.priority < operator.priority
      · rw [if_pos tighter, if_pos tighter]
        exact (left.note (length_le_above found above)).ends_waiting room present calculator
          tighter value
      · rw [if_neg tighter, if_neg tighter, if_neg first, if_neg first]
        have popped := left.popped calculator
        cases fold environment mode pending value with
        | error fault => exact .error popped
        | ok result =>
            have fewer : above.length < turns := Nat.lt_of_succ_lt_succ enough
            obtain ⟨turns, rfl⟩ : ∃ fewer, turns = fewer + 1 := ⟨turns - 1, by omega⟩
            refine inductionHypothesis popped others ?_ result turns fewer
            rw [calculator]

/-- An expression comes to the same on either stack, and an evaluation that ends well takes off
what it put there. -/
theorem Underway.ends_expression {nested : Attempt (Desk (Overseen H)) Value}
    {bare : Attempt (Desk H) Value}
    (room : under.capacity - under.length = found.capacity - found.length)
    (levelled : ∀ {calculator stack : BoundedStack Pending} {overseen : Overseen H},
      stack.capacity - stack.length = calculator.capacity - calculator.length →
      overseen.depth = start.depth → Levelled calculator stack overseen nested bare)
    (turns : Nat) (underway : Underway found under start above desk plain) :
    Ends (fun _ => Level found under start) (Left found under start)
      (expression environment mode found.length nested turns desk)
      (operations environment mode bare turns plain) := by
  induction turns generalizing above desk plain with
  | zero => exact .error underway.left
  | succ turns inductionHypothesis =>
      rw [expression, operations_succ]
      refine (underway.step (levelled_scanning _)).bind fun code reached arrived underway => ?_
      cases unary : Pending.ofCode? code with
      | some pending =>
          exact (underway.step (levelled_scanning _)).bind fun _ _ _ underway =>
            (underway.push room (Climbing.ofCode?_inLine unary).2).bind
              fun _ _ _ underway => inductionHypothesis underway
      | none =>
          have nested := levelled (underway.room room) underway.heeds.depth
          refine (underway.step (levelled_operand environment mode nested code)).bind
            fun value _ _ underway => ?_
          refine (underway.step levelled_readOperator).bind fun operator later last underway => ?_
          have items : last.calculator.items = above ++ Pending.sentinel :: under.items := by
            rw [underway.plain, onStack]
          have enough : above.length < later.calculator.length + 1 := by
            rw [underway.calculator, BoundedStack.length, List.length_append]
            omega
          have unwound := underway.left.ends_unwind environment mode room underway.present
            underway.calculator operator enough value
          rw [Attempt.bind_apply, Attempt.bind_apply, Attempt.get_apply, Attempt.get_apply]
          dsimp only
          rw [items]
          refine unwound.bind fun result reached arrived unwound => ?_
          cases result with
          | some result => exact .ok unwound
          | none =>
              obtain ⟨above, underway⟩ := unwound
              exact inductionHypothesis underway

omit [Console H] in
theorem Level.leave (level : Level found under start.enter desk plain) :
    Level found under start { desk with console := desk.console.leave } plain :=
  ⟨level.plain, level.calculator, level.heeds.leave⟩

omit [Console H] in
/-- What an evaluation that failed left on the stacks is taken off. -/
theorem Left.truncate (left : Left found under start.enter desk plain) :
    Level found under start
      (Oversight.truncate found.length { desk with console := desk.console.leave })
      { plain with calculator := plain.calculator.truncate under.length } := by
  obtain ⟨above, calculator⟩ := left.calculator
  obtain ⟨others, rest⟩ := left.under
  have taken (base : BoundedStack Pending) (above : List Pending) :
      BoundedStack.truncate { base with items := above ++ base.items } base.length = base := by
    rw [BoundedStack.truncate, BoundedStack.length]
    simp
  unfold Oversight.truncate
  refine ⟨?_, ?_, left.heeds.leave.note fun touch member => ?_⟩
  · rw [left.plain, onStack, rest, taken]
    rfl
  · dsimp only
    rw [calculator, taken]
  · obtain ⟨height, inside, rfl⟩ := List.mem_map.mp member
    exact ⟨Nat.le_refl _, (List.mem_range'_1.mp inside).1⟩

omit [Console H] in
/-- However an evaluation ended, the stacks are what they were before. -/
theorem matches_conclude {outcome : Except Fault Value × Desk (Overseen H)}
    {step : Attempt (Desk H) Value}
    (ended : Ends (fun _ => Level found under start.enter) (Left found under start.enter) outcome
      (step (onStack desk under))) :
    Attempt.Matches (Level found under start) (conclude found.length outcome)
      (Desk.restoring step (onStack desk under)) := by
  rw [Desk.restoring]
  generalize step (onStack desk under) = arrival at ended ⊢
  cases ended with
  | ok level => exact ⟨rfl, level.leave⟩
  | error left => exact ⟨rfl, left.truncate⟩

/-- Whatever is below, and however many evaluations are under way, an evaluation leaves it alone. -/
theorem levelled_oversee (levels : Nat)
    (room : under.capacity - under.length = found.capacity - found.length)
    (left : environment.config.maxNesting - start.depth = levels) :
    Levelled found under start (oversee environment mode levels)
      (evaluateWithin environment mode levels) := by
  induction levels generalizing found under start with
  | zero => exact mirrored_throw .outOfMemory
  | succ levels inductionHypothesis =>
      rintro desk _ ⟨rfl, rfl, heeds⟩
      have inside : ¬environment.config.maxNesting ≤ desk.console.depth := by
        rw [heeds.depth]
        omega
      let opened : Desk (Overseen H) := { desk with console := desk.console.enter }
      have entered : Ends (fun _ => Underway desk.calculator under desk.console.enter [])
          (Left desk.calculator under desk.console.enter)
          (Desk.push Pending.sentinel opened)
          (Desk.push Pending.sentinel (onStack desk under)) := by
        refine Ends.mono (ends_push Pending.sentinel room) ?_ ?_
        · rintro _ _ _ ⟨rfl, rfl⟩
          exact ⟨nofun, rfl, rfl, .refl _ _⟩
        · rintro _ _ ⟨rfl, rfl⟩
          exact ⟨⟨[], rfl⟩, ⟨[], rfl⟩, rfl, .refl _ _⟩
      have depth : desk.console.enter.depth = start.depth + 1 := congrArg (· + 1) heeds.depth
      have since {reached : Desk (Overseen H)} {arrived : Desk H}
          (level : Level desk.calculator under desk.console reached arrived) :
          Level desk.calculator under start reached arrived :=
        ⟨level.plain, level.calculator, heeds.trans level.heeds⟩
      unfold oversee evaluateWithin
      rw [if_neg inside]
      refine (matches_conclude (entered.bind fun _ reached arrived underway => ?_)).imp_right since
      rw [Attempt.bind_apply, Attempt.bind_apply, Attempt.get_apply, Attempt.get_apply]
      dsimp only
      rw [show arrived.scanner = reached.scanner by rw [underway.plain, onStack]]
      exact underway.ends_expression environment mode room
        (fun room deeper => inductionHypothesis room (by rw [deeper, depth]; omega)) _

/-- However an evaluation ends, it leaves the stack and the register as it found them, and no
evaluation touches an entry below its sentinel. It is the evaluation of an expression with as many
levels as are left, on the stack that it found or on any other with as much room above it. -/
theorem restores_evaluate (desk : Desk (Overseen H)) :
    let run := evaluate environment mode desk
    let levels := environment.config.maxNesting - desk.console.depth
    let room := desk.calculator.capacity - desk.calculator.length
    run.2.calculator = desk.calculator ∧
      run.2.console.depth = desk.console.depth ∧
      (∃ touches, run.2.console.touched = touches ++ desk.console.touched ∧
        ∀ touch ∈ touches, desk.calculator.length ≤ touch.base ∧ touch.base ≤ touch.height) ∧
      evaluateWithin environment mode levels (onStack desk desk.calculator) =
        (run.1, onStack run.2 desk.calculator) ∧
      ∀ below : List Pending,
        evaluateWithin environment mode levels (onStack desk ⟨below.length + room, below⟩) =
          (run.1, onStack run.2 ⟨below.length + room, below⟩) := by
  intro run levels room
  have level {under : BoundedStack Pending}
      (room : under.capacity - under.length = desk.calculator.capacity - desk.calculator.length) :
      evaluateWithin environment mode levels (onStack desk under) = (run.1, onStack run.2 under) ∧
        run.2.calculator = desk.calculator ∧
        Heeds desk.calculator.length desk.console run.2.console := by
    have level := levelled_oversee environment mode levels room rfl desk (onStack desk under)
      ⟨rfl, rfl, .refl _ _⟩
    exact ⟨Prod.ext level.1 level.2.plain, level.2.calculator, level.2.heeds⟩
  obtain ⟨same, calculator, heeds⟩ := level rfl
  refine ⟨calculator, heeds.depth, heeds.touched, same, fun below => (level ?_).1⟩
  exact Nat.add_sub_cancel_left below.length room

end

end Oversight
end Expression
end HomeBasic
