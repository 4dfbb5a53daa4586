import HomeBasic.Proofs.Expression.Climbing

/-!
# Climbing without counting turns

Every turn of a climb takes up a code of the line, so any number of turns above the
codes that are left will do (`climb_eq`). `climbing` takes enough of them wherever it
stands, and is its own recursion (`climbing_apply`, `extending_apply`).
-/

namespace HomeBasic
namespace Climbing

open Attempt (Agrees)

variable {H : Type} {environment : Environment} {mayRunOut : Prop}

/-! ## What operands make of the nested reading -/

section
variable {left right : Attempt (Desk H) Value} {desk : Desk H}

theorem agrees_subscript
    (nested : ∀ later, later.Ahead desk → Agrees mayRunOut (left later) (right later)) :
    Agrees mayRunOut (subscript left desk) (subscript right desk) := by
  refine Agrees.bind_same fun _ later run => ?_
  have ahead := (Desk.moves_expect (by decide)).ahead run
  exact (nested later ahead).bind fun _ _ _ => .refl _

variable [Console H]

theorem agrees_call (function : Function)
    (nested : ∀ later, later.Ahead desk → Agrees mayRunOut (left later) (right later)) :
    Agrees mayRunOut (call environment left function desk)
      (call environment right function desk) := by
  unfold call
  split
  · refine Agrees.bind_same fun _ later run => ?_
    have ahead := (Desk.moves_expect (by decide)).ahead run
    exact (nested later ahead).bind fun _ _ _ => .refl _
  · exact .refl _

omit [Console H] in
theorem agrees_fetch (name : Name) (use : NameUse)
    (nested : ∀ later, later.Ahead desk → Agrees mayRunOut (left later) (right later)) :
    Agrees mayRunOut (fetch environment left name use desk)
      (fetch environment right name use desk) := by
  cases use with
  | number => exact .refl _
  | text => exact .refl _
  | array => exact (agrees_subscript nested).bind fun _ _ _ => .refl _
  | textFunction => exact .refl _

theorem agrees_named (more : desk.scanner.current ≠ Code.newline)
    (nested : ∀ later, later.Past desk → Agrees mayRunOut (left later) (right later)) :
    Agrees mayRunOut (named environment left desk) (named environment right desk) := by
  refine Agrees.bind_same fun (name, use) later run => ?_
  rw [Desk.readName_apply] at run
  split at run
  · cases run
  · cases run
    have past : ∀ later value, Desk.skip (desk.scanner.rest.take desk.scanner.nameAhead.2).length
        desk = (.ok value, later) → later.Past desk :=
      fun _ _ run => (Desk.consumes_skip (length_take_nameAhead more) more).past run
    dsimp only
    cases Function.ofName? (desk.scanner.rest.take desk.scanner.nameAhead.2)
        desk.scanner.nameAhead.1 with
    | some function =>
        refine Agrees.bind_same fun _ skipped run => ?_
        have beyond := past skipped _ run
        split
        · refine Agrees.bind_same fun _ further run => agrees_call _ fun later ahead => ?_
          exact nested later ((ahead.trans ((Desk.moves_skip 1).ahead run)).trans_past beyond)
        · exact agrees_call _ fun later ahead => nested later (ahead.trans_past beyond)
    | none =>
        dsimp only
        split
        · exact .refl _
        · refine Agrees.bind_same fun _ skipped run => ?_
          have beyond := past skipped _ run
          refine (agrees_fetch _ _ fun later ahead => ?_).bind fun _ _ _ => .refl _
          exact nested later (ahead.trans_past beyond)

/-- Operands agree if what is nested in them agrees further on in the line. -/
theorem agrees_operand {code : Code} (looked : desk.scanner.current = code)
    (nested : ∀ later, later.Past desk → Agrees mayRunOut (left later) (right later)) :
    Agrees mayRunOut (operand environment left code desk)
      (operand environment right code desk) := by
  unfold operand
  split
  · exact .refl _
  · split
    · exact .refl _
    · split
      next opening =>
        refine Agrees.bind_same fun _ later run => ?_
        have past := (Desk.consumes_advance (by rw [looked, opening]; decide)).past run
        exact (nested later past).bind fun _ _ _ => .refl _
      next =>
        split
        next letter =>
          refine agrees_named ?_ nested
          rw [looked]
          rintro rfl
          exact absurd letter (by decide)
        next => exact .refl _

end

/-! ## Turns -/

variable [Console H]
variable {left right : Nat → Attempt (Desk H) (Value × Operator)} {desk : Desk H}

omit [Console H] in
theorem signed_congr (number : Int) (priority : Nat)
    (more : desk.scanner.current ≠ Code.newline)
    (same : ∀ minimum later, later.Past desk → left minimum later = right minimum later) :
    signed environment left number priority desk =
      signed environment right number priority desk := by
  refine Agrees.eq (Agrees.bind_same fun _ later run => ?_)
  have past := (Desk.consumes_advance more).past run
  exact Agrees.bind (.inr (same _ later past)) fun _ _ _ => .refl _

theorem unary_congr {code : Code} (looked : desk.scanner.current = code)
    (same : ∀ minimum later, later.Past desk → left minimum later = right minimum later) :
    unary environment left code desk = unary environment right code desk := by
  unfold unary
  split
  next minus => exact signed_congr 0 9 (by rw [looked, minus]; decide) same
  next =>
    split
    next not => exact signed_congr (-1) 4 (by rw [looked, not]; decide) same
    next =>
      refine Agrees.eq (Agrees.bind (agrees_operand looked fun later past => ?_)
        fun _ _ _ => .refl _)
      exact Agrees.bind (.inr (same 0 later past)) fun _ _ _ => .refl _

omit [Console H] in
theorem extend_congr {minimum firstTurns secondTurns : Nat} {value : Value}
    {operator : Operator}
    (consumes : ∀ minimum later, Desk.Consumes (right minimum) later)
    (same : ∀ minimum later, later.Ahead desk → left minimum later = right minimum later)
    (first : desk.scanner.codesLeft < firstTurns)
    (second : desk.scanner.codesLeft < secondTurns) :
    extend environment left minimum firstTurns value operator desk =
      extend environment right minimum secondTurns value operator desk := by
  induction firstTurns generalizing secondTurns value operator desk with
  | zero => omega
  | succ firstTurns inductionHypothesis =>
      obtain ⟨secondTurns, rfl⟩ : ∃ turns, secondTurns = turns + 1 :=
        ⟨secondTurns - 1, by omega⟩
      unfold extend
      split
      · rfl
      · refine Agrees.eq (Agrees.bind (.inr (same _ desk (.refl desk)))
          fun taken later run => ?_)
        have past := (consumes _ desk).past run
        refine Agrees.bind_same fun result reached run => .inr ?_
        have stays := (Desk.moves_ofExcept _).ahead run
        have shorter := (stays.trans_past past).shorter
        exact inductionHypothesis
          (fun minimum later ahead =>
            same minimum later (ahead.trans_past (stays.trans_past past)).toAhead)
          (by omega) (by omega)

/-- How many turns a climb may take makes no difference, if only they are enough. -/
theorem climb_eq {firstTurns secondTurns : Nat} (minimum : Nat)
    (first : desk.scanner.codesLeft < firstTurns)
    (second : desk.scanner.codesLeft < secondTurns) :
    climb environment firstTurns minimum desk = climb environment secondTurns minimum desk := by
  induction firstTurns generalizing secondTurns minimum desk with
  | zero => omega
  | succ firstTurns inductionHypothesis =>
      obtain ⟨secondTurns, rfl⟩ : ∃ turns, secondTurns = turns + 1 :=
        ⟨secondTurns - 1, by omega⟩
      refine Agrees.eq (Agrees.bind_same fun code looked run => ?_)
      rw [Desk.look_apply] at run
      cases run
      have bound := desk.scanner.follows_look.codesLeft_le
      have same : ∀ minimum (later : Desk H),
          later.Past { desk with scanner := desk.scanner.look } →
          climb environment firstTurns minimum later =
            climb environment secondTurns minimum later := by
        intro minimum later past
        have shorter := past.shorter
        dsimp only at shorter
        exact inductionHypothesis minimum (by omega) (by omega)
      refine Agrees.bind (.inr (unary_congr rfl same)) fun (value, operator) later run => .inr ?_
      have consumes : Desk.Consumes (unary environment (climb environment secondTurns) _)
          { desk with scanner := desk.scanner.look } :=
        consumes_unary (moves_climb environment secondTurns) rfl
      have past := consumes.past run
      have shorter := past.shorter
      dsimp only at shorter
      exact extend_congr (consumes_climb environment secondTurns)
        (fun minimum further ahead => same minimum further (ahead.trans_past past))
        (by omega) (by omega)

/-! ## Climbing with turns enough -/

variable (environment)

/-- Climbs with turns enough for the codes that are left. -/
def climbing (minimum : Nat) : Attempt (Desk H) (Value × Operator) := fun desk =>
  climb environment (desk.scanner.codesLeft + 1) minimum desk

/-- Takes in operators with turns enough for the codes that are left. -/
def extending (minimum : Nat) (value : Value) (operator : Operator) :
    Attempt (Desk H) (Value × Operator) := fun desk =>
  extend environment (climbing environment) minimum (desk.scanner.codesLeft + 1) value operator
    desk

theorem consumes_climbing (minimum : Nat) (desk : Desk H) :
    Desk.Consumes (climbing environment minimum) desk :=
  consumes_climb environment _ minimum desk

theorem moves_climbing (minimum : Nat) :
    Desk.Moves (climbing environment minimum : Attempt (Desk H) _) :=
  fun desk => (consumes_climbing environment minimum desk).ahead

theorem ignores_climbing (minimum : Nat) :
    Desk.Ignores (climbing environment minimum : Attempt (Desk H) _) :=
  fun desk calculator =>
    ignores_climb environment (desk.scanner.codesLeft + 1) minimum desk calculator

theorem climb_eq_climbing {turns : Nat} (minimum : Nat)
    (enough : desk.scanner.codesLeft < turns) :
    climb environment turns minimum desk = climbing environment minimum desk :=
  climb_eq minimum enough (Nat.lt_succ_self _)

theorem climbing_apply (minimum : Nat) (desk : Desk H) :
    climbing environment minimum desk =
      (do
        let code ← Desk.look
        let (value, operator) ← unary environment (climbing environment) code
        extending environment minimum value operator : Attempt (Desk H) _) desk := by
  refine Agrees.eq (Agrees.bind_same fun code looked run => ?_)
  rw [Desk.look_apply] at run
  cases run
  have bound := desk.scanner.follows_look.codesLeft_le
  have same : ∀ minimum (later : Desk H),
      later.Past { desk with scanner := desk.scanner.look } →
      climb environment desk.scanner.codesLeft minimum later =
        climbing environment minimum later := by
    intro minimum later past
    have shorter := past.shorter
    dsimp only at shorter
    exact climb_eq_climbing environment minimum (by omega)
  refine Agrees.bind (.inr (unary_congr rfl same)) fun (value, operator) later run => .inr ?_
  have consumes : Desk.Consumes (unary environment (climbing environment) _)
      { desk with scanner := desk.scanner.look } :=
    consumes_unary (moves_climbing environment) rfl
  have past := consumes.past run
  have shorter := past.shorter
  dsimp only at shorter
  exact extend_congr (consumes_climbing environment)
    (fun minimum further ahead => same minimum further (ahead.trans_past past))
    (by omega) (Nat.lt_succ_self _)

theorem extending_apply (minimum : Nat) (value : Value) (operator : Operator) (desk : Desk H) :
    extending environment minimum value operator desk =
      if operator.priority ≤ minimum then
        (.ok (value, operator), desk)
      else
        (do
          let (right, next) ← climbing environment operator.priority
          let result ← Attempt.ofExcept (combine environment operator value right)
          extending environment minimum result next : Attempt (Desk H) _) desk := by
  rw [extending, extend]
  split
  · rfl
  · refine Agrees.eq (Agrees.bind_same fun (right, next) later run => ?_)
    refine Agrees.bind_same fun result reached run' => .inr ?_
    have past := ((Desk.moves_ofExcept _).ahead run').trans_past
      ((consumes_climbing environment _ desk).past run)
    exact extend_congr (consumes_climbing environment) (fun _ _ _ => rfl) past.shorter
      (Nat.lt_succ_self _)

theorem evaluate_eq :
    (evaluate environment : Attempt (Desk H) Value) = (do
      let (value, _) ← climbing environment 0
      return value) := rfl

theorem moves_evaluate : Desk.Moves (evaluate environment : Attempt (Desk H) Value) := by
  rw [evaluate_eq]
  exact (moves_climbing environment 0).bind fun _ => Desk.moves_pure _

theorem ignores_evaluate : Desk.Ignores (evaluate environment : Attempt (Desk H) Value) := by
  rw [evaluate_eq]
  exact (ignores_climbing environment 0).bind fun _ => .pure _

end Climbing
end HomeBasic
