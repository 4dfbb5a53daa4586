import HomeBasic.Proofs.Console.Upheld
import HomeBasic.Proofs.Expression.Parallel
import HomeBasic.Proofs.Line.OneLine
import HomeBasic.Proofs.Number.Exact
import HomeBasic.Proofs.Variables.Sound
import Mathlib.Data.List.TakeWhile

/-!
# Values that variables can hold

A variable can hold a word, or a text without the quote that would end it too early.
An expression over sound variables comes to such a value, however it gets there, and
so does every operation that is pending on the way.

Main statement: this is so for whole evaluations, which also leave alone what the
console keeps to (`sustains_evaluateWithin`).
-/

namespace HomeBasic

open Attempt (Sustains)

/-- A variable can hold the value and get it back from its packing. -/
def Value.Storable (size : WordSize) : Value → Prop
  | .number value => size.Fits value
  | .text codes => Code.quote ∉ codes

/-- Only storable values are pending, and the console is in good order. -/
structure Desk.Steady {H : Type} (size : WordSize) (holds : H → Prop) (desk : Desk H) : Prop where
  pending : ∀ pending ∈ desk.calculator.items, pending.value.Storable size
  console : holds desk.console

/-! ## Functions -/

namespace Function

variable {H : Type} [Console H] {savable : Nat → Prop} {holds : H → Prop}
  {environment : Environment}

theorem fits_absolute (size : WordSize) (value : Int) : size.Fits (Operator.absolute size value) :=
  size.fits_wrap _

theorem fits_sign (size : WordSize) (value : Int) : size.Fits value.sign := by
  rcases Int.lt_trichotomy value 0 with negative | zero | positive
  · rw [Int.sign_eq_neg_one_of_neg negative]
    cases size <;> decide
  · rw [zero]
    cases size <;> decide
  · rw [Int.sign_eq_one_of_pos positive]
    cases size <;> decide

theorem fits_seconds (size : WordSize) (seconds : Nat) :
    size.Fits (min (seconds : Int) size.maximum) := by
  have range : size.minimum ≤ 0 ∧ 0 ≤ size.maximum := by
    cases size <;> decide
  exact ⟨by omega, by omega⟩

/-- A function replies with what a variable can hold. -/
theorem sustains_call (upheld : Console.Upheld environment.config.word savable holds)
    (function : Function) {argument : Value}
    (storable : argument.Storable environment.config.word) :
    Sustains holds (function.call environment argument)
      (Value.Storable environment.config.word) := by
  cases function <;> rcases argument with value | codes
  case abs.number => exact Attempt.sustains_pure (fits_absolute _ value)
  case sgn.number => exact Attempt.sustains_pure (fits_sign _ value)
  case rnd.number =>
    unfold call
    dsimp only
    split
    · exact Attempt.sustains_throw _
    next positive =>
      intro console start
      exact upheld.random value console start (by omega) storable
  case peek.number =>
    exact (Attempt.sustains_ofExcept fun byte _ => trivial).bind fun byte _ =>
      Attempt.sustains_pure (WordSize.fits_byte _ byte)
  case len.text =>
    exact (Attempt.sustains_ofExcept fun length run => WordSize.fits_of_checked run).bind
      fun length fits => Attempt.sustains_pure fits
  case code.text => exact Attempt.sustains_pure (WordSize.fits_byte _ _)
  case val.text =>
    unfold call
    dsimp only
    cases parsed : Decimal.parse? environment.config.word codes with
    | some value => exact Attempt.sustains_pure (Decimal.fits_parse? parsed)
    | none => exact Attempt.sustains_throw _
  case chr.number =>
    unfold call
    dsimp only
    split
    · exact Attempt.sustains_throw _
    next shown =>
      refine Attempt.sustains_pure fun member => shown (.inr (.inr ?_))
      have same := congrArg UInt8.toNat (List.mem_singleton.mp member)
      rw [UInt8.toNat_ofNat'] at same
      omega
  case str.number =>
    exact Attempt.sustains_pure (Decimal.not_mem_format value (by decide) (by decide))
  case time.number | time.text =>
    exact Attempt.sustains_get.bind fun console _ =>
      Attempt.sustains_pure (fits_seconds environment.config.word _)
  all_goals exact Attempt.sustains_throw _

end Function

/-! ## Literals -/

namespace Scanner

theorem sustains_readDigits {size : WordSize} {value : Int} (fits : size.Fits value)
    (digits : List Code) :
    Sustains (fun _ => True) (readDigits size digits value) size.Fits := by
  induction digits generalizing value with
  | nil => exact Attempt.sustains_pure fits
  | cons digit digits inductionHypothesis =>
      refine (Attempt.sustains_ofExcept fun next run => WordSize.fits_of_checked run).bind
        fun next fits => ?_
      exact (Attempt.sustains_modify fun _ _ => trivial).bind fun _ _ => inductionHypothesis fits

theorem sustains_readNumber (size : WordSize) :
    Sustains (fun _ => True) (readNumber size) size.Fits :=
  (Attempt.sustains_modify fun _ _ => trivial).bind fun _ _ =>
    Attempt.sustains_get.bind fun _ _ => sustains_readDigits size.fits_zero _

/-- A text that is read ends before a quote. -/
theorem sustains_readText : Sustains (fun _ => True) readText fun codes => Code.quote ∉ codes := by
  apply Attempt.sustains_get.bind
  intro scanner _
  apply (Attempt.sustains_set trivial).bind
  intro _ _
  split
  · refine (Attempt.sustains_modify fun _ _ => trivial).bind fun _ _ => Attempt.sustains_pure ?_
    intro member
    have kept := List.mem_takeWhile_imp member
    simp at kept
  · exact Attempt.sustains_throw _

end Scanner

/-! ## Steps at a desk -/

namespace Desk

variable {H : Type} {α : Type} {size : WordSize} {holds : H → Prop}

theorem sustains_scanning (step : Attempt Scanner α) {yields : α → Prop}
    (reads : Sustains (fun _ => True) step yields) :
    Sustains (Steady size holds) (scanning step) yields :=
  Attempt.sustains_within reads (fun _ _ => trivial)
    fun _ _ steady _ => ⟨steady.pending, steady.console⟩

theorem sustains_scanned (step : Attempt Scanner α) :
    Sustains (Steady size holds) (scanning step) fun _ => True := by
  refine sustains_scanning step fun scanner _ => ?_
  rcases step scanner with ⟨fault | value, changed⟩
  · trivial
  · exact ⟨trivial, trivial⟩

theorem sustains_consulting {step : Attempt H α} {yields : α → Prop}
    (sustains : Sustains holds step yields) :
    Sustains (Steady size holds) (consulting step) yields :=
  Attempt.sustains_within sustains (fun _ steady => steady.console)
    fun _ _ steady console => ⟨steady.pending, console⟩

theorem sustains_push {pending : Pending} (storable : pending.value.Storable size) :
    Sustains (Steady size holds) (push pending) fun _ => True := by
  intro desk steady
  rw [push_apply]
  cases pushed : desk.calculator.push pending with
  | error fault => exact steady
  | ok calculator =>
      obtain ⟨_, rfl⟩ := BoundedStack.push_eq_ok_iff.mp pushed
      exact ⟨trivial, List.forall_mem_cons.mpr ⟨storable, steady.pending⟩, steady.console⟩

theorem sustains_restoring {step : Attempt (Desk H) α} {yields : α → Prop}
    (sustains : Sustains (Steady size holds) step yields) :
    Sustains (Steady size holds) (restoring step) yields := by
  intro desk steady
  have reached := sustains desk steady
  unfold restoring
  generalize step desk = outcome at reached ⊢
  rcases outcome with ⟨fault | value, changed⟩
  · exact ⟨fun pending member => reached.pending pending (List.mem_of_mem_drop member),
      reached.console⟩
  · exact reached

/-- A name that is read is no longer than a name can be. -/
theorem sustains_readName :
    Sustains (Steady size holds) readName fun named => named.1.length ≤ maxNameLength := by
  intro desk steady
  rw [readName_apply]
  split
  next => exact steady
  next short =>
    refine ⟨?_, steady⟩
    dsimp only
    rw [List.length_take]
    omega

end Desk

/-! ## Evaluation -/

namespace Expression

variable {H : Type} [Console H] {savable : Nat → Prop} {holds : H → Prop}
  {environment : Environment} {capacity : Nat} {mode : Mode}

open Desk (Steady sustains_scanned sustains_scanning)

/-- The values of an expression can be stored. -/
abbrev Yields (environment : Environment) (holds : H → Prop) (step : Attempt (Desk H) Value) :
    Prop :=
  Sustains (Steady environment.config.word holds) step (Value.Storable environment.config.word)

theorem storable_fetched
    (sound : environment.variableStore.Sound environment.config.word capacity)
    {name : Name} {index : Int} {use : NameUse} {value : Value}
    (run : fetched environment name index mode use = .ok value) :
    value.Storable environment.config.word := by
  have zero := environment.config.word.fits_zero
  cases mode <;> cases use
  case check.number | check.array =>
    cases run
    exact zero
  case check.text =>
    cases run
    exact List.not_mem_nil
  case check.textFunction | execute.textFunction => cases run
  case execute.number =>
    obtain ⟨number, found, rfl⟩ := Attempt.exists_of_map_eq_ok run
    exact sound.fits_number found
  case execute.text =>
    obtain ⟨codes, found, rfl⟩ := Attempt.exists_of_map_eq_ok run
    exact sound.unquoted_text found
  case execute.array =>
    obtain ⟨number, found, rfl⟩ := Attempt.exists_of_map_eq_ok run
    exact sound.fits_element found

theorem sustains_reply (upheld : Console.Upheld environment.config.word savable holds)
    (function : Function) {argument : Value}
    (storable : argument.Storable environment.config.word) :
    Sustains holds (reply environment mode function argument)
      (Value.Storable environment.config.word) := by
  cases mode with
  | execute => exact Function.sustains_call upheld function storable
  | check =>
      apply Attempt.sustains_pure
      unfold Function.placeholder
      split
      · exact List.not_mem_nil
      · exact environment.config.word.fits_zero

theorem storable_fold {pending : Pending} {right value : Value}
    (storable : right.Storable environment.config.word)
    (run : fold environment mode pending right = .ok value) :
    value.Storable environment.config.word := by
  have zero := environment.config.word.fits_zero
  rcases pending with ⟨left | left, operator, priority⟩ <;> rcases right with right | right
  case number.number =>
    cases mode with
    | check =>
        cases run
        exact zero
    | execute =>
        obtain ⟨result, applied, rfl⟩ := Attempt.exists_of_map_eq_ok run
        exact Operator.fits_apply storable applied
  case text.text =>
    simp only [fold] at run
    cases compared : operator.compareTexts left right with
    | error fault =>
        rw [compared] at run
        cases run
    | ok result =>
        rw [compared] at run
        cases mode with
        | check =>
            cases run
            exact zero
        | execute =>
            cases run
            exact Operator.fits_compareTexts compared
  all_goals cases run

section
variable {nested : Attempt (Desk H) Value} (yields : Yields environment holds nested)
include yields

omit [Console H] in
theorem sustains_number :
    Sustains (Steady environment.config.word holds) (number nested)
      environment.config.word.Fits := by
  apply yields.bind
  intro value storable
  cases value with
  | number value => exact Attempt.sustains_pure storable
  | text codes => exact Attempt.sustains_throw _

omit [Console H] in
theorem sustains_subscript :
    Sustains (Steady environment.config.word holds) (subscript nested)
      environment.config.word.Fits :=
  (sustains_scanned _).bind fun _ _ => (sustains_number yields).bind fun _ fits =>
    (sustains_scanned _).bind fun _ _ => Attempt.sustains_pure fits

omit [Console H] in
theorem sustains_argument (function : Function) :
    Yields environment holds (argument nested function) := by
  unfold argument
  split
  · refine (sustains_scanned _).bind fun _ _ => yields.bind fun value storable =>
      (sustains_scanned _).bind fun _ _ => ?_
    split
    · exact Attempt.sustains_pure storable
    · exact Attempt.sustains_throw _
  · exact Attempt.sustains_pure environment.config.word.fits_zero

theorem sustains_callFunction (upheld : Console.Upheld environment.config.word savable holds)
    (function : Function) :
    Yields environment holds (callFunction environment mode nested function) := by
  rw [callFunction_eq]
  exact (sustains_argument yields function).bind fun _ storable =>
    Desk.sustains_consulting (sustains_reply upheld function storable)

omit [Console H] in
theorem sustains_subscriptOf (use : NameUse) :
    Sustains (Steady environment.config.word holds) (subscriptOf nested use) fun _ => True := by
  cases use with
  | array => exact (sustains_subscript yields).weaken fun _ _ => trivial
  | text => exact (sustains_scanned _).bind fun _ _ => Attempt.sustains_pure trivial
  | number | textFunction => exact Attempt.sustains_pure trivial

variable (sound : environment.variableStore.Sound environment.config.word capacity)
  (upheld : Console.Upheld environment.config.word savable holds)
include sound upheld

theorem sustains_reference :
    Yields environment holds (reference environment mode nested) := by
  rw [reference_eq]
  refine Desk.sustains_readName.bind fun (name, use) _ => ?_
  dsimp only
  cases Function.ofName? name use with
  | some function =>
      apply (sustains_scanned _).bind
      intro _ _
      split
      · exact (sustains_scanned _).bind fun _ _ => sustains_callFunction yields upheld function
      · exact sustains_callFunction yields upheld function
  | none =>
      dsimp only
      split
      · exact Attempt.sustains_throw _
      · exact (sustains_scanned _).bind fun _ _ => (sustains_subscriptOf yields use).bind fun _ _ =>
          (Attempt.sustains_ofExcept fun _ run => storable_fetched sound run).bind fun _ storable =>
            (sustains_scanned _).bind fun _ _ => Attempt.sustains_pure storable

theorem sustains_operand (code : Code) :
    Yields environment holds (operand environment mode nested code) := by
  unfold operand
  repeat' split
  · exact (sustains_scanning _ (Scanner.sustains_readNumber _)).bind
      fun _ fits => Attempt.sustains_pure fits
  · exact (sustains_scanning _ Scanner.sustains_readText).bind
      fun _ unquoted => Attempt.sustains_pure unquoted
  · exact (sustains_scanned _).bind fun _ _ => yields.bind fun _ storable =>
      (sustains_scanned _).bind fun _ _ => Attempt.sustains_pure storable
  · exact sustains_reference yields sound upheld
  · exact Attempt.sustains_throw _

end

omit [Console H] in
theorem sustains_readOperator {size : WordSize} :
    Sustains (Steady size holds) (readOperator : Attempt (Desk H) Operator) fun _ => True := by
  apply (sustains_scanned _).bind
  intro code _
  dsimp only
  split
  · exact (sustains_scanned _).bind fun _ _ => Attempt.sustains_pure trivial
  · exact Attempt.sustains_pure trivial

/-- What is left to do after folding concerns storable values. -/
def Folded.Storable (size : WordSize) : Folded → Prop
  | .ended value stack | .waiting value stack =>
      value.Storable size ∧ ∀ pending ∈ stack, pending.value.Storable size

theorem storable_foldAll {operator : Operator} {stack : List Pending} {value : Value}
    {folded : Folded} (storable : value.Storable environment.config.word)
    (others : ∀ pending ∈ stack, pending.value.Storable environment.config.word)
    (run : foldAll environment mode operator stack value = .ok folded) :
    folded.Storable environment.config.word := by
  induction stack generalizing value with
  | nil =>
      simp only [foldAll] at run
      split at run <;> cases run <;> exact ⟨storable, by simp⟩
  | cons pending stack inductionHypothesis =>
      obtain ⟨_, below⟩ := List.forall_mem_cons.mp others
      rw [foldAll] at run
      split at run
      · cases run
        exact ⟨storable, others⟩
      · split at run
        · cases run
          exact ⟨storable, below⟩
        · cases result : fold environment mode pending value with
          | error fault =>
              rw [result] at run
              cases run
          | ok value =>
              rw [result] at run
              exact inductionHypothesis (storable_fold storable result) below run

section
variable (sound : environment.variableStore.Sound environment.config.word capacity)
  (upheld : Console.Upheld environment.config.word savable holds)
include sound upheld

theorem sustains_operations {nested : Attempt (Desk H) Value}
    (yields : Yields environment holds nested) (turns : Nat) :
    Yields environment holds (operations environment mode nested turns) := by
  induction turns with
  | zero => exact Attempt.sustains_throw _
  | succ turns inductionHypothesis =>
      apply (sustains_scanned _).bind
      intro code _
      cases prefixed : Pending.ofCode? code with
      | some pending =>
          have storable : pending.value.Storable environment.config.word := by
            unfold Pending.ofCode? at prefixed
            repeat' split at prefixed
            all_goals cases prefixed
            all_goals
              change WordSize.Fits _ _
              cases environment.config.word <;> decide
          exact (sustains_scanned _).bind fun _ _ => (Desk.sustains_push storable).bind
            fun _ _ => inductionHypothesis
      | none =>
          apply (sustains_operand yields sound upheld code).bind
          intro value storable
          apply sustains_readOperator.bind
          intro operator _
          apply Attempt.sustains_get.bind
          intro desk steady
          cases folds : foldAll environment mode operator desk.calculator.items value with
          | error fault => exact Attempt.sustains_throw fault
          | ok folded =>
              have left := storable_foldAll storable steady.pending folds
              cases folded with
              | ended result below =>
                  have ended : Steady environment.config.word holds
                      { desk with calculator := { desk.calculator with items := below } } :=
                    ⟨left.2, steady.console⟩
                  exact (Attempt.sustains_set ended).bind fun _ _ =>
                    Attempt.sustains_pure left.1
              | waiting result stack =>
                  have waiting : Steady environment.config.word holds
                      { desk with calculator := { desk.calculator with items := stack } } :=
                    ⟨left.2, steady.console⟩
                  exact (Attempt.sustains_set waiting).bind fun _ _ =>
                    (Desk.sustains_push left.1).bind fun _ _ => inductionHypothesis

/-- An expression over sound variables comes to a value that a variable can hold. -/
theorem sustains_evaluateWithin (levels : Nat) :
    Yields environment holds (evaluateWithin environment mode levels) := by
  induction levels with
  | zero => exact Attempt.sustains_throw _
  | succ levels inductionHypothesis =>
      have sentinel : Pending.sentinel.value.Storable environment.config.word :=
        environment.config.word.fits_zero
      exact Desk.sustains_restoring ((Desk.sustains_push sentinel).bind fun _ _ =>
        Attempt.sustains_get.bind fun _ _ =>
          sustains_operations sound upheld inductionHypothesis _)

end

end Expression
end HomeBasic
