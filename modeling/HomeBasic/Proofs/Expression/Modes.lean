import HomeBasic.Proofs.Expression.Parallel
import HomeBasic.Proofs.Function.Faults

/-!
# Checking and executing agree

A check of an expression and an execution of it keep side by side, though the values
differ and only the execution asks for variables and for the console. So a check
foretells how far an execution reads and the type it yields. What a check cannot know
is whether the values have a result, and a `VAL` may be at fault with a syntax error.

Main statement: every execution is as its check foretells
(`foretells_evaluateWithin`).
-/

namespace HomeBasic
namespace Expression

open Attempt (Exits)

variable {H K : Type} [Console H] [Console K]

/-! ## A check beside an execution -/

/-- Values of one type are alike. Only an execution stops alone, and for its values. -/
def typing (H K : Type) (environment : Environment) : Pairing H K where
  left _ := False
  right := environment.Raises
  both _ _ := True
  Alike left right := right.isText = left.isText
  Meet _ _ := True

omit [Console H] [Console K] in
theorem results_fold {checking environment : Environment} {pending waiting : Pending}
    {left right : Value}
    (alikePending : (typing H K environment).PendAlike pending waiting)
    (alike : (typing H K environment).Alike left right) :
    (typing H K environment).toExits.Results (typing H K environment).Alike
      (fold checking .check pending left) (fold environment .execute waiting right) := by
  obtain ⟨value, _, priority⟩ := pending
  obtain ⟨other, operator, priority'⟩ := waiting
  obtain ⟨kind, rfl, _⟩ := alikePending
  rcases value with value | value <;> rcases other with other | other <;> try cases kind
  case number.number =>
    rcases left with left | left <;> rcases right with right | right <;> try cases alike
    · simp only [fold]
      cases applied : operator.apply environment.config.word other right with
      | ok result => rfl
      | error fault =>
          rw [Operator.fault_of_apply applied]
          exact .overflow
    · exact .inl trivial
  case text.text =>
    rcases left with left | left <;> rcases right with right | right <;> try cases alike
    · exact .inl trivial
    · -- Which comparisons texts have does not depend on the texts.
      cases operator <;> first | rfl | exact .inl trivial

theorem parallel_modes {checking environment : Environment}
    (config : environment.config = checking.config) :
    Parallel (typing H K environment) checking environment .check .execute where
  config := config
  both _ := trivial
  alike _ := rfl
  isText _ _ alike := alike
  fetched name use _ index _ := by
    cases use with
    | number =>
        simp only [fetched]
        cases found : environment.variableStore.number name with
        | ok value => rfl
        | error fault =>
            rw [Variables.fault_of_number found]
            exact .notFound
    | text =>
        simp only [fetched]
        cases found : environment.variableStore.text name with
        | ok codes => rfl
        | error fault =>
            rw [Variables.fault_of_text found]
            exact .notFound
    | array =>
        simp only [fetched]
        cases found : environment.variableStore.element name index with
        | ok value => rfl
        | error fault =>
            rcases Variables.fault_of_element found with rfl | rfl
            · exact .notFound
            · exact .outOfRange
    | textFunction => exact .inl trivial
  reply function left right alike typed := by
    intro console terminal _
    have reached : Attempt.Meets (fun value _ => value.isText = function.returnsText)
        (fun fault _ => environment.Raises fault) (function.call environment right terminal) :=
      Function.meets_call (alike.trans typed) terminal
    simp only [reply]
    generalize function.call environment right terminal = outcome at reached ⊢
    have placed : function.placeholder.isText = function.returnsText := by
      cases function <;> rfl
    rcases outcome with ⟨fault | value, arrived⟩
    · exact reached
    · exact ⟨reached.trans placed.symm, trivial⟩
  fold _ _ _ _ alikePending alike := results_fold alikePending alike

/-! ## Executions that differ in what `VAL` fails with -/

/-- The environment with another fault of `VAL`. -/
def failing (environment : Environment) (valFault : Fault) : Environment :=
  { environment with valFault }

/-- Everything is the same, unless both sides stop because of `VAL`. -/
def tracing (H : Type) (first second : Fault) : Pairing H H where
  left _ := False
  right _ := False
  both fault other := fault = other ∨ fault = first ∧ other = second
  Alike := Eq
  Meet := Eq

omit [Console H] [Console K] in
theorem both_tracing {first second : Fault} (fault : Fault) :
    (tracing H first second).both fault fault :=
  .inl rfl

omit [Console K] in
theorem parallel_failing (environment : Environment) (first second : Fault) :
    Parallel (tracing H first second) (failing environment first) (failing environment second)
      .execute .execute where
  config := rfl
  both := both_tracing
  alike _ := rfl
  isText _ _ alike := congrArg Value.isText alike.symm
  fetched name use index _ alike := by
    cases alike
    have same : fetched (failing environment second) name index .execute use =
        fetched (failing environment first) name index .execute use := by
      cases use <;> rfl
    rw [same]
    exact Exits.results_refl both_tracing (fun _ => rfl) _
  reply function argument _ alike _ := by
    cases alike
    rintro console _ rfl
    by_cases val : function = .val
    · subst val
      cases argument with
      | number value => exact .inl (.inl rfl)
      | text codes =>
          simp only [reply, Function.call, failing]
          cases Decimal.parse? environment.config.word codes with
          | some value => exact ⟨rfl, rfl⟩
          | none => exact .inl (.inr ⟨rfl, rfl⟩)
    · have same : (reply (failing environment second) .execute function argument : Attempt H _) =
          reply (failing environment first) .execute function argument := by
        cases function <;> cases argument <;> first | rfl | exact absurd rfl val
      rw [same]
      exact Exits.results_refl both_tracing (fun _ => ⟨rfl, rfl⟩) _
  fold pending waiting left _ alikePending alike := by
    cases alike
    rw [alikePending.eq fun _ _ => id]
    exact Exits.results_refl both_tracing (fun _ => rfl) _

omit [Console H] [Console K] in
/-- Of two executions that do the same, one that is at fault with the syntax is so in a `VAL`. -/
theorem fails_of_traced {α : Type} {after : α → Desk H → α → Desk H → Prop} {valFault : Fault}
    {left right : Except Fault α × Desk H}
    (traced : Attempt.Together (tracing H .syntaxError valFault).toExits after left right)
    (ill : left.1 = .error .syntaxError)
    (raised : right.1 = .error .syntaxError → valFault = .syntaxError) :
    right.1 = .error valFault := by
  unfold Attempt.Together at traced
  rw [ill] at traced
  generalize right.1 = outcome at traced raised ⊢
  cases outcome with
  | ok value => exact traced.elim
  | error fault =>
      rcases traced with (same | same) | never | never
      · cases same
        rw [raised rfl]
      · rw [same.2]
      · exact never.elim
      · exact never.elim

/-! ## What a check foretells -/

/--
An execution, given what `VAL` fails with, is as a check of the same expression foretold:
it reads as far and yields a value of the same type, or the values have no result. It
fails with a syntax error only where it fails with whatever `VAL` fails with.
-/
def Foretold (executed : Fault → Except Fault Value × Desk K) :
    Except Fault Value × Desk H → Prop
  | (.ok value, checked) =>
      (∃ result reached, executed .syntaxError = (.ok result, reached) ∧
        result.isText = value.isText ∧ reached.scanner = checked.scanner) ∨
      ∃ fault, (executed .syntaxError).1 = .error fault ∧ fault ≠ .outOfMemory ∧
        (fault = .syntaxError → ∀ valFault, (executed valFault).1 = .error valFault)
  | (.error _, _) => ∃ fault, (executed .syntaxError).1 = .error fault

section
variable (environment : Environment) (levels : Nat) (desk : Desk H)

/-- An execution that fails with a syntax error fails with whatever `VAL` fails with. -/
theorem fails_of_val
    (ill : (evaluateWithin (failing environment .syntaxError) .execute levels desk).1 =
      .error .syntaxError)
    (raised : ∀ valFault fault,
      (evaluateWithin (failing environment valFault) .execute levels desk).1 = .error fault →
        (failing environment valFault).Raises fault)
    (valFault : Fault) :
    (evaluateWithin (failing environment valFault) .execute levels desk).1 =
      .error valFault := by
  have beside : (tracing H .syntaxError valFault).Beside desk desk :=
    ⟨rfl, rfl, List.forall₂_same.mpr fun _ _ => ⟨rfl, rfl, rfl⟩, rfl⟩
  have traced := keeps_evaluateWithin (parallel_failing environment .syntaxError valFault)
    levels desk desk beside
  refine fails_of_traced traced ill fun failed => ?_
  cases raised valFault _ failed
  rfl

end

/-- Every execution is as its check foretells, from any place and with anything to read. -/
theorem foretold_evaluateWithin (checking environment : Environment) (levels : Nat)
    (scanner : Scanner) (calculator : BoundedStack Pending) (console : H) (terminal : K) :
    Foretold
      (fun valFault => evaluateWithin (failing environment valFault) .execute levels
        ⟨scanner, calculator, terminal⟩)
      (evaluateWithin { checking with config := environment.config } .check levels
        ⟨scanner, calculator, console⟩) := by
  have together : ∀ valFault, Attempt.Together (typing H K (failing environment valFault)).toExits
      (fun value checked other reached => other.isText = value.isText ∧
        (typing H K (failing environment valFault)).Beside checked reached)
      (evaluateWithin { checking with config := environment.config } .check levels
        ⟨scanner, calculator, console⟩)
      (evaluateWithin (failing environment valFault) .execute levels
        ⟨scanner, calculator, terminal⟩) := by
    intro valFault
    have parallel : Parallel (typing H K (failing environment valFault))
        { checking with config := environment.config } (failing environment valFault)
        .check .execute := parallel_modes rfl
    have beside : (typing H K (failing environment valFault)).Beside
        ⟨scanner, calculator, console⟩ ⟨scanner, calculator, terminal⟩ :=
      ⟨rfl, rfl, List.forall₂_same.mpr fun _ _ => ⟨rfl, rfl, rfl⟩, trivial⟩
    exact keeps_evaluateWithin parallel levels _ _ beside
  generalize evaluateWithin { checking with config := environment.config } .check levels
    (⟨scanner, calculator, console⟩ : Desk H) = outcome at together ⊢
  rcases outcome with ⟨fault | value, checked⟩
  · have beside := together .syntaxError
    unfold Foretold
    dsimp only
    generalize evaluateWithin (failing environment .syntaxError) .execute levels
      (⟨scanner, calculator, terminal⟩ : Desk K) = outcome at beside ⊢
    rcases outcome with ⟨fault | result, reached⟩
    · exact ⟨fault, rfl⟩
    · exact beside.elim
  · have raised : ∀ valFault fault,
        (evaluateWithin (failing environment valFault) .execute levels
          (⟨scanner, calculator, terminal⟩ : Desk K)).1 = .error fault →
        (failing environment valFault).Raises fault := by
      intro valFault fault failed
      have beside := together valFault
      unfold Attempt.Together at beside
      rw [failed] at beside
      exact beside
    have beside := together .syntaxError
    rcases run : evaluateWithin (failing environment .syntaxError) .execute levels
      (⟨scanner, calculator, terminal⟩ : Desk K) with ⟨fault | result, reached⟩
    · have failed := congrArg Prod.fst run
      refine .inr ⟨fault, failed, ?_, ?_⟩
      · rintro rfl
        cases raised _ _ failed
      · rintro rfl
        exact fails_of_val environment levels _ failed raised
    · rw [run] at beside
      exact .inl ⟨result, reached, run, beside.1, beside.2.scanner⟩

end Expression
end HomeBasic
