import HomeBasic.Function.Call
import HomeBasic.Proofs.Attempt.Rules

/-!
# Faults that depend on values

Whether a result overflows, a variable is found and a subscript is in range depends
on the values that an expression has, as does whether the text given to `VAL` is a
number. A machine reports no other fault for the values of an expression whose types
are right.

Main statements: these are the only faults of arithmetic (`fault_of_apply`), of the
variable store (`fault_of_number`, …) and of functions (`meets_call`).
-/

namespace HomeBasic

open Attempt (Confined)

/-- A fault that the values of an expression may bring about. -/
inductive Environment.Raises (environment : Environment) : Fault → Prop
  | overflow : Raises environment .arithmeticOverflow
  | notFound : Raises environment .variableNotFound
  | outOfRange : Raises environment .subscriptOutOfRange
  | noNumber : Raises environment environment.valFault

/-! ## Arithmetic -/

namespace Operator

variable {size : WordSize} {fault : Fault}

theorem fault_of_checked {value : Int} (failed : size.checked value = .error fault) :
    fault = .arithmeticOverflow :=
  (WordSize.checked_eq_error_iff.mp failed).2

theorem fault_of_product {left right : Int} (failed : product size left right = .error fault) :
    fault = .arithmeticOverflow := by
  unfold product at failed
  split at failed
  · cases failed
  · exact fault_of_checked failed

theorem fault_of_repeatedProduct {factor : Int} {count : Nat} {accumulated : Int}
    (failed : repeatedProduct size factor count accumulated = .error fault) :
    fault = .arithmeticOverflow := by
  induction count generalizing accumulated with
  | zero => cases failed
  | succ count inductionHypothesis =>
      unfold repeatedProduct at failed
      cases multiplied : product size accumulated factor with
      | ok next =>
          rw [multiplied] at failed
          exact inductionHypothesis failed
      | error other =>
          rw [multiplied] at failed
          cases failed
          exact fault_of_product multiplied

theorem fault_of_powerOf {base exponent : Int}
    (failed : powerOf size base exponent = .error fault) : fault = .arithmeticOverflow := by
  unfold powerOf at failed
  dsimp only at failed
  repeat' split at failed
  all_goals first
    | exact fault_of_repeatedProduct failed
    | cases failed
  all_goals rfl

theorem fault_of_apply {operator : Operator} {left right : Int}
    (failed : operator.apply size left right = .error fault) :
    fault = .arithmeticOverflow := by
  cases operator with
  | add | subtract => exact fault_of_checked failed
  | multiply => exact fault_of_product failed
  | divide =>
      simp only [apply, quotient] at failed
      split at failed
      · cases failed
        rfl
      · exact fault_of_checked failed
  | power => exact fault_of_powerOf failed
  | absent | and | or | equal | less | greater | lessEqual | greaterEqual | notEqual =>
      cases failed

theorem fault_of_compareTexts {operator : Operator} {left right : List Code}
    (failed : operator.compareTexts left right = .error fault) : fault = .syntaxError := by
  cases operator <;> cases failed <;> rfl

end Operator

/-! ## Variables -/

namespace Variables

variable {store : Variables} {name : Name} {fault : Fault}

theorem fault_of_number (failed : store.number name = .error fault) :
    fault = .variableNotFound := by
  unfold number at failed
  split at failed <;> cases failed
  rfl

theorem fault_of_text (failed : store.text name = .error fault) : fault = .variableNotFound := by
  unfold text at failed
  split at failed <;> cases failed
  rfl

theorem fault_of_elementAt {values : List Int} {index : Int}
    (failed : elementAt values index = .error fault) : fault = .subscriptOutOfRange := by
  unfold elementAt at failed
  split at failed <;> cases failed
  rfl

theorem fault_of_element {index : Int} (failed : store.element name index = .error fault) :
    fault = .variableNotFound ∨ fault = .subscriptOutOfRange := by
  unfold element at failed
  split at failed
  · next values _ =>
    cases found : elementAt values index with
    | ok place =>
        rw [found] at failed
        cases failed
    | error other =>
        rw [found] at failed
        cases failed
        exact .inr (fault_of_elementAt found)
  · cases failed
    exact .inl rfl

end Variables

/-! ## Functions -/

namespace Function

variable {H : Type} [Console H] {environment : Environment}

theorem fault_of_peek {address : Int} {fault : Fault}
    (failed : environment.peek address = .error fault) : fault = .subscriptOutOfRange := by
  unfold Environment.peek at failed
  repeat' split at failed
  all_goals cases failed
  all_goals rfl

/-- A call with an argument of the right type yields the right type, or its value is to blame. -/
theorem meets_call {function : Function} {argument : Value}
    (typed : argument.isText = function.takesText) (console : H) :
    Attempt.Meets (fun value _ => value.isText = function.returnsText)
      (fun fault _ => environment.Raises fault)
      (function.call environment argument console) := by
  cases function <;> rcases argument with value | codes <;> try cases typed
  case rnd.number =>
    unfold call
    dsimp only
    split
    · exact .overflow
    · rfl
  case peek.number =>
    simp only [call, Attempt.bind_apply, Attempt.ofExcept_apply]
    cases found : environment.peek value with
    | ok byte => rfl
    | error fault =>
        rw [fault_of_peek found]
        exact .outOfRange
  case len.text =>
    simp only [call, Attempt.bind_apply, Attempt.ofExcept_apply]
    cases measured : environment.config.word.checked codes.length with
    | ok length => rfl
    | error fault =>
        rw [Operator.fault_of_checked measured]
        exact .overflow
  case val.text =>
    unfold call
    dsimp only
    cases Decimal.parse? environment.config.word codes with
    | some value => rfl
    | none => exact .noNumber
  case chr.number =>
    unfold call
    dsimp only
    split
    · exact .overflow
    · rfl
  all_goals rfl

theorem confined_call {function : Function} {argument : Value}
    (typed : argument.isText = function.takesText) :
    Confined environment.Raises (function.call environment argument : Attempt H Value) := by
  intro console fault failed
  have reached : Attempt.Meets _ (fun fault _ => environment.Raises fault)
      (function.call environment argument console) := meets_call typed console
  generalize function.call environment argument console = outcome at failed reached
  rcases outcome with ⟨other | value, changed⟩
  · cases failed
    exact reached
  · cases failed

end Function
end HomeBasic
