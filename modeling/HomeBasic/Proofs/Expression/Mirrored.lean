import HomeBasic.Proofs.Desk.Twins
import HomeBasic.Proofs.Expression.Climbing
import HomeBasic.Proofs.Expression.Parallel

/-!
# Evaluations that do the same

One expression is evaluated at two desks whose scanners are twins, in the same mode. If
what is fetched, replied and folded is the same on both sides (`Alike`), then so are the
values and the faults, and the desks are twins again. A comma behind the codes of the
first scanner ends an expression as the end of the line does, so an expression may be cut out
of a list and comes to the same alone.

Main statement: this is so for whole evaluations (`mirrored_evaluateWithin`).
-/

namespace HomeBasic
namespace Expression

open Attempt (Matches Mirrored mirrored_pure mirrored_throw)
open Desk (Twins TwinsAt)
open Scanner (Course)

/-- Two ways of evaluating for which values come to the same. -/
structure Alike {H K : Type} [Console H] [Console K] (meet : H → K → Prop)
    (first second : Environment) (mode : Mode) : Prop where
  config : second.config = first.config
  fetched : ∀ name index use,
    fetched second name index mode use = fetched first name index mode use
  reply : ∀ function argument,
    Mirrored meet (reply first mode function argument) (reply second mode function argument) meet
  fold : ∀ pending value, fold second mode pending value = fold first mode pending value

/-! ## How much an operand takes up -/

/-- Two evaluations that are one. -/
def Pairing.identity (H : Type) : Pairing H H where
  toExits := .same
  Alike := Eq
  Meet := Eq

section
variable {H : Type} [Console H] (environment : Environment) (mode : Mode)

theorem parallel_identity :
    Parallel (Pairing.identity H) environment environment mode mode where
  config := rfl
  both _ := rfl
  alike _ := rfl
  isText := by
    rintro value _ rfl
    rfl
  fetched := by
    rintro name use left right alike
    obtain rfl : left = right := Value.number.inj alike
    exact Attempt.Exits.results_refl (fun _ => rfl) (fun _ => rfl) _
  reply := by
    rintro function value _ rfl _ console _ rfl
    exact Attempt.Exits.results_refl (fun _ => rfl) (fun _ => ⟨rfl, rfl⟩) _
  fold := by
    rintro pending waiting value _ alike rfl
    obtain rfl := alike.eq fun _ _ => id
    exact Attempt.Exits.results_refl (fun _ => rfl) (fun _ => rfl) _

variable {environment mode}

/-- An operand takes up a code of the line. -/
theorem shorter_operand {levels : Nat} {desk reached : Desk H} {value : Value}
    (run : operand environment mode (evaluateWithin environment mode levels)
      desk.scanner.current desk = (.ok value, reached)) :
    reached.scanner.line.length ≤ desk.scanner.line.length - 1 := by
  have along : (Pairing.identity H).Along True desk.scanner.line.length desk desk :=
    ⟨⟨rfl, Nat.le_refl _⟩, fun _ => rfl, rfl, List.forall₂_same.mpr fun _ _ => ⟨rfl, rfl, rfl⟩, rfl⟩
  have tracks := tracksAt_operand (parallel_identity environment mode)
    (fun bound => tracks_evaluateWithin (parallel_identity environment mode)
      levels bound)
    desk.scanner.current desk desk ⟨along, rfl⟩
  rw [run] at tracks
  exact tracks.2.scanner.within

end

/-! ## Steps of an evaluation -/

section
variable {H K : Type} [Console H] [Console K] {course : Course} {meet : H → K → Prop}
  {first second : Environment} {mode : Mode} (alike : Alike meet first second mode)

section
variable {left : Attempt (Desk H) Value} {right : Attempt (Desk K) Value}
  (nested : Mirrored (Twins course meet) left right (Twins course meet))
include nested

omit [Console H] [Console K] in
theorem mirrored_number :
    Mirrored (Twins course meet) (number left) (number right) (Twins course meet) := by
  refine nested.bind fun value => ?_
  cases value with
  | number value => exact mirrored_pure value
  | text codes => exact mirrored_throw .syntaxError

omit [Console H] [Console K] in
theorem mirrored_subscript :
    Mirrored (Twins course meet) (subscript left) (subscript right) (Twins course meet) := by
  refine (Desk.mirrored_expect (by decide) (by decide) (.inr (by decide))).bind fun _ => ?_
  refine (mirrored_number nested).bind fun index => ?_
  exact (Desk.mirrored_expect (by decide) (by decide) (.inr (by decide))).bind fun _ =>
    mirrored_pure index

omit [Console H] [Console K] in
theorem mirrored_argument (function : Function) :
    Mirrored (Twins course meet) (argument left function) (argument right function)
      (Twins course meet) := by
  unfold argument
  split
  · refine (Desk.mirrored_expect (by decide) (by decide) (.inr (by decide))).bind fun _ => ?_
    refine nested.bind fun value => ?_
    refine (Desk.mirrored_expect (by decide) (by decide) (.inr (by decide))).bind fun _ => ?_
    split
    · exact mirrored_pure value
    · exact mirrored_throw .syntaxError
  · exact mirrored_pure _

include alike in
theorem mirrored_callFunction (function : Function) :
    Mirrored (Twins course meet) (callFunction first mode left function)
      (callFunction second mode right function) (Twins course meet) := by
  rw [callFunction_eq, callFunction_eq]
  refine (mirrored_argument nested function).bind fun value => ?_
  intro desk opposite twins
  have replied := alike.reply function value desk.console opposite.console twins.console
  simp only [Desk.consulting, Attempt.within_apply]
  exact ⟨replied.1, twins.scanner, twins.calculator, replied.2⟩

include alike in
/-- What follows a name that was passed over. -/
theorem mirrored_fetched (name : Name) (use : NameUse) :
    Mirrored
      (fun desk opposite => Twins course meet desk opposite ∧
        (use = .text ∨ use = .textFunction → desk.scanner.current = Code.dollar))
      (do
        let index ← subscriptOf left use
        let value ← Attempt.ofExcept (fetched first name index mode use)
        let _ ← Desk.look
        return value)
      (do
        let index ← subscriptOf right use
        let value ← Attempt.ofExcept (fetched second name index mode use)
        let _ ← Desk.look
        return value)
      (Twins course meet) := by
  have ends (index : Int) : Mirrored (Twins course meet)
      (do
        let value ← Attempt.ofExcept (fetched first name index mode use)
        let _ ← (Desk.look : Attempt (Desk H) Code)
        return value)
      (do
        let value ← Attempt.ofExcept (fetched second name index mode use)
        let _ ← (Desk.look : Attempt (Desk K) Code)
        return value)
      (Twins course meet) := by
    rw [alike.fetched]
    refine (Attempt.mirrored_ofExcept _).bind fun value => ?_
    exact Desk.mirrored_look_bind
      (fun _ _ => (mirrored_pure value).narrow fun _ _ twins => twins.toTwins)
      ((mirrored_pure value).narrow fun _ _ twins => twins.toTwins)
  cases use with
  | array =>
      exact ((mirrored_subscript nested).bind ends).narrow fun _ _ both => both.1
  | text =>
      have skipped : Mirrored (TwinsAt course meet Code.dollar) (Desk.skip 1)
          (Desk.skip 1) (Twins course meet) :=
        Desk.mirrored_skip_one (by decide) (by decide)
      simp only [subscriptOf, bind_assoc, pure_bind]
      exact (skipped.bind fun _ => ends 0).narrow fun _ _ both => ⟨both.1, both.2 (.inl trivial)⟩
  | number | textFunction =>
      simp only [subscriptOf, pure_bind]
      exact (ends 0).narrow fun _ _ both => both.1

include alike in
theorem mirrored_reference {code : Code} (more : code ≠ Code.newline)
    (solid : code ≠ Code.quote) :
    Mirrored (TwinsAt course meet code) (reference first mode left)
      (reference second mode right) (Twins course meet) := by
  rw [reference_eq, reference_eq]
  refine Desk.mirrored_readName_bind more fun name use => ?_
  dsimp only
  cases Function.ofName? name use with
  | some function =>
      refine Desk.mirrored_skip_name_bind more solid ?_
      have called := mirrored_callFunction alike nested function
      split
      next text =>
        have skipped : Mirrored (TwinsAt course meet Code.dollar) (Desk.skip 1)
            (Desk.skip 1) (Twins course meet) :=
          Desk.mirrored_skip_one (by decide) (by decide)
        exact (skipped.bind fun _ => called).narrow fun _ _ both => ⟨both.1, both.2 (.inr text)⟩
      next => exact called.narrow fun _ _ both => both.1
  | none =>
      dsimp only
      split
      · exact (mirrored_throw .syntaxError).narrow fun _ _ both => both.1.toTwins
      · exact Desk.mirrored_skip_name_bind more solid (mirrored_fetched alike nested name use)

include alike in
theorem mirrored_operand {code : Code} (more : code ≠ Code.newline) :
    Mirrored (TwinsAt course meet code) (operand first mode left code)
      (operand second mode right code) (Twins course meet) := by
  unfold operand
  rw [alike.config]
  split
  next digit =>
    have read : Mirrored _ _ _ (Desk.Twins course meet) :=
      Desk.mirrored_scanning (H := H) (K := K)
        (Scanner.Twins.mirrored_readNumber first.config.word)
    exact (read.bind fun value => mirrored_pure (Value.number value)).narrow
      fun _ _ twins => ⟨twins.toTwins, twins.scanner⟩
  next =>
    split
    next quote =>
      have read : Mirrored _ _ _ (Desk.Twins course meet) :=
        Desk.mirrored_scanning (H := H) (K := K) Scanner.Twins.mirrored_readText
      exact (read.bind fun codes => mirrored_pure (Value.text codes)).narrow
        fun _ _ twins => ⟨twins.toTwins, twins.scanner, by rw [twins.current, quote]⟩
    next unquoted =>
      split
      next =>
        refine (Desk.mirrored_advance more unquoted).bind fun _ => ?_
        refine nested.bind fun value => ?_
        exact (Desk.mirrored_expect (by decide) (by decide) (.inr (by decide))).bind fun _ =>
          mirrored_pure value
      next =>
        split
        next letter => exact mirrored_reference alike nested more unquoted
        next => exact (mirrored_throw .syntaxError).narrow fun _ _ twins => twins.toTwins

end

omit [Console H] [Console K] in
theorem mirrored_readOperator :
    Mirrored (Twins course meet) (readOperator : Attempt (Desk H) Operator)
      (readOperator : Attempt (Desk K) Operator) (Twins course meet) := by
  refine Desk.mirrored_look_bind (fun code more => ?_) ?_
  · dsimp only
    split
    next present =>
      have solid : code ≠ Code.quote := by
        rintro rfl
        exact present rfl
      exact (Desk.mirrored_advance more solid).bind fun _ => mirrored_pure _
    next => exact (mirrored_pure _).narrow fun _ _ twins => twins.toTwins
  · have absent : Operator.ofCode (course.after.headD Code.newline) = .absent := by
      rcases course.cut with none | ⟨_, _, rest, comma⟩
      · rw [none]
        rfl
      · rw [comma]
        rfl
    dsimp only
    rw [absent]
    exact (mirrored_pure _).narrow fun _ _ twins => twins.toTwins

include alike in
theorem foldAll_eq (operator : Operator) (stack : List Pending) (value : Value) :
    foldAll second mode operator stack value = foldAll first mode operator stack value := by
  induction stack generalizing value with
  | nil => rfl
  | cons pending stack inductionHypothesis =>
      simp only [foldAll, alike.fold]
      split
      · rfl
      · split
        · rfl
        · cases fold first mode pending value with
          | ok result => exact inductionHypothesis result
          | error fault => rfl

include alike in
/-- Every turn takes up a code of the line, so any numbers of turns above those left will do. -/
theorem matches_operations {levels turns others : Nat}
    (nested : Mirrored (Twins course meet) (evaluateWithin first mode levels)
      (evaluateWithin second mode levels) (Twins course meet))
    {desk : Desk H} {opposite : Desk K} (twins : Twins course meet desk opposite)
    (enough : desk.scanner.line.length < turns) (suffice : desk.scanner.line.length < others) :
    Matches (Twins course meet)
      (operations first mode (evaluateWithin first mode levels) turns desk)
      (operations second mode (evaluateWithin second mode levels) others opposite) := by
  induction turns generalizing desk opposite others with
  | zero => omega
  | succ turns inductionHypothesis =>
      obtain ⟨others, rfl⟩ : ∃ fewer, others = fewer + 1 := ⟨others - 1, by omega⟩
      have further {reached : Desk H} {arrived : Desk K} (twins : Twins course meet reached arrived)
          (shorter : reached.scanner.line.length < desk.scanner.line.length) :
          Matches (Twins course meet)
            (operations first mode (evaluateWithin first mode levels) turns reached)
            (operations second mode (evaluateWithin second mode levels) others arrived) :=
        inductionHypothesis twins (by omega) (by omega)
      have pushed {reached : Desk H} {arrived : Desk K} (twins : Twins course meet reached arrived)
          (shorter : reached.scanner.line.length < desk.scanner.line.length) (pending : Pending) :=
        (Desk.mirrored_push pending reached arrived twins).bind
          fun _ later _ run twins => further twins (by rwa [Desk.scanner_of_push run])
      refine twins.look_bind (fun code reached arrived more twins within => ?_)
        fun reached arrived twins => ?_
      · obtain rfl := twins.current
        cases prefixed : Pending.ofCode? reached.scanner.current with
        | some pending =>
            have solid : reached.scanner.current ≠ Code.quote := by
              intro quote
              rw [quote] at prefixed
              cases prefixed
            refine (Desk.mirrored_advance more solid _ _ twins).bind
              fun _ later moved run twins => ?_
            have past := (Desk.consumes_advance more).past run
            exact pushed twins (Nat.lt_of_lt_of_le past.shorter within) pending
        | none =>
            refine (mirrored_operand alike nested more _ _ twins).bind
              fun value later moved run twins => ?_
            have shorter := shorter_operand run
            refine (mirrored_readOperator _ _ twins).bind fun operator last final run twins => ?_
            have less : last.scanner.line.length ≤ later.scanner.line.length :=
              (Climbing.moves_readOperator.ahead run).follows.codesLeft_le
            have some : 0 < reached.scanner.line.length := Scanner.codesLeft_pos more
            rw [Attempt.bind_apply, Attempt.bind_apply, Attempt.get_apply, Attempt.get_apply]
            dsimp only
            rw [twins.calculator, foldAll_eq alike]
            rcases foldAll first mode operator last.calculator.items value with
              fault | ⟨result, below⟩ | ⟨result, stack⟩
            · exact ⟨rfl, twins⟩
            · exact ⟨rfl, twins.scanner, rfl, twins.console⟩
            · have folded : Twins course meet
                  { last with calculator := { last.calculator with items := stack } }
                  { final with calculator := { last.calculator with items := stack } } :=
                ⟨twins.scanner, rfl, twins.console⟩
              have shorter : last.scanner.line.length < desk.scanner.line.length := by omega
              exact pushed folded shorter _
      · rcases course.cut with none | ⟨_, _, rest, comma⟩
        · rw [none]
          exact ⟨rfl, twins.toTwins⟩
        · rw [comma]
          exact ⟨rfl, twins.toTwins⟩

include alike in
/-- Evaluations of one expression at twin scanners come to the same. -/
theorem mirrored_evaluateWithin (levels : Nat) :
    Mirrored (Twins course meet) (evaluateWithin first mode levels)
      (evaluateWithin second mode levels) (Twins course meet) := by
  induction levels with
  | zero => exact mirrored_throw .outOfMemory
  | succ levels inductionHypothesis =>
      refine Desk.mirrored_restoring ((Desk.mirrored_push .sentinel).bind fun _ => ?_)
      intro desk opposite twins
      have turns : desk.scanner.line.length ≤ desk.scanner.rest.length :=
        desk.scanner.codesLeft_le_length
      have others : opposite.scanner.line.length ≤ opposite.scanner.rest.length :=
        opposite.scanner.codesLeft_le_length
      have length := twins.scanner.length
      rw [Attempt.bind_apply, Attempt.bind_apply, Attempt.get_apply, Attempt.get_apply]
      dsimp only
      exact matches_operations alike inductionHypothesis twins (by omega) (by omega)

end

end Expression
end HomeBasic
