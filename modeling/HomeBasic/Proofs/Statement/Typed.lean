import HomeBasic.Proofs.Desk.Movement
import HomeBasic.Statement

/-!
# Commands that fit their places

Whatever a line says, and whether it is well formed or not, a command that it comes to
gives a place a value of the place's type, and a name in it is no longer than the scanner
lets a name be.

Main statement: this is so for every line (`returns_line`).
-/

namespace HomeBasic

open Attempt (Sustains)

/-- An assignment is of the type of its place, and the name of an array is not too long. -/
def Command.Typed : Command → Prop
  | .assign target value => target.isText = value.isText
  | .dimension name _ => name.length ≤ maxNameLength
  | _ => True

/-- A command is typed if there is one. -/
def Outcome.Typed : Outcome → Prop
  | .act command => command.Typed
  | .done | .another => True

/-- From any state, what a step yields is as it should be. -/
abbrev Attempt.Returns {σ α : Type} (step : Attempt σ α) (yields : α → Prop) : Prop :=
  Sustains (fun _ => True) step yields

namespace Statement

open Attempt (Returns sustains_true sustains_pure sustains_guard sustains_throw)

variable {H : Type}

theorem returns_variableName :
    Returns (variableName : Attempt (Desk H) (Name × NameUse))
      fun named => named.1.length ≤ maxNameLength := by
  have read : Returns (Desk.readName : Attempt (Desk H) (Name × NameUse))
      fun named => named.1.length ≤ maxNameLength := by
    intro desk _
    rw [Desk.readName_apply]
    split
    next => trivial
    next short =>
      refine ⟨?_, trivial⟩
      dsimp only
      rw [List.length_take]
      omega
  refine (sustains_true _).bind fun code _ => sustains_guard fun _ => ?_
  exact read.bind fun (name, use) named => sustains_guard fun _ => sustains_pure named

variable [Console H] (environment : Environment) (mode : Mode)

theorem returns_dimensionForm :
    Returns (dimensionForm environment mode : Attempt (Desk H) Command) Command.Typed := by
  refine returns_variableName.bind fun (name, use) named => sustains_guard fun _ => ?_
  refine (sustains_true _).bind fun _ _ => (sustains_true _).bind fun maxIndex _ => ?_
  refine (sustains_true _).bind fun _ _ => sustains_pure ?_
  exact named

theorem returns_loopForm :
    Returns (loopForm environment mode : Attempt (Desk H) Command) Command.Typed := by
  refine (sustains_true _).bind fun name _ => (sustains_true _).bind fun _ _ => ?_
  refine (sustains_true _).bind fun start _ => (sustains_true _).bind fun _ _ => ?_
  refine (sustains_true _).bind fun limit _ => (sustains_true _).bind fun _ _ => ?_
  apply sustains_pure
  trivial

theorem returns_ownForm (operands : Operands) (word : StatementWord) :
    Returns (ownForm environment mode operands word : Attempt (Desk H) Outcome)
      Outcome.Typed := by
  cases word
  case «if» =>
    refine (sustains_true _).bind fun _ _ => sustains_guard fun _ => sustains_pure ?_
    split <;> trivial
  case «for» =>
    exact (returns_loopForm environment mode).bind fun _ typed => sustains_pure typed
  case dim =>
    exact (returns_dimensionForm environment mode).bind fun _ typed => sustains_pure typed
  case data =>
    cases mode with
    | check =>
        exact (sustains_true _).bind fun _ _ => (sustains_true _).bind fun _ _ =>
          sustains_pure trivial
    | execute => exact (sustains_true _).bind fun _ _ => sustains_pure trivial
  case print =>
    exact (sustains_true _).bind fun _ _ => (sustains_true _).bind fun _ _ =>
      sustains_pure trivial
  case rem => exact (sustains_true _).bind fun _ _ => sustains_pure trivial
  case poke | beep =>
    refine (sustains_true _).bind fun (first, second) _ => (sustains_true _).bind fun _ _ => ?_
    apply sustains_pure
    trivial
  all_goals exact sustains_throw _

/-- The value of a `LET` is of the type of its target. -/
theorem returns_operands_let :
    Returns
      (StatementWord.let.operandClasses.foldlM (operand environment mode) Operands.none :
        Attempt (Desk H) Operands)
      fun operands => ∀ target value, operands.target = some target →
        operands.value = some value → target.isText = value.isText := by
  simp only [StatementWord.operandClasses, List.foldlM_cons, List.foldlM_nil]
  refine (sustains_true _).bind fun withTarget _ => (sustains_true _).bind fun separated _ => ?_
  refine Sustains.bind ?_ fun operands (typed : ∀ target value, operands.target = some target →
    operands.value = some value → target.isText = value.isText) => sustains_pure typed
  refine (sustains_true _).bind fun value _ => sustains_guard fun same => sustains_pure ?_
  intro target other targeted valued
  cases valued
  have placed : separated.target = some target := targeted
  simpa [placed] using same

/-- What a word without a form of its own asks for is typed, if its operands are. -/
theorem typed_command? {operands : Operands} {word : StatementWord} {command : Command}
    (found : operands.command? word = some command)
    (typed : word = .let → ∀ target value, operands.target = some target →
      operands.value = some value → target.isText = value.isText) : command.Typed := by
  rcases operands with ⟨target, value⟩
  cases word
  case «let» =>
    cases target <;> cases value <;> cases found
    exact typed rfl _ _ rfl rfl
  case input | read =>
    cases target <;> cases found
    trivial
  case next =>
    rcases target with _ | ⟨name⟩ | _ | _ <;> cases found
    trivial
  case save | load | goto | gosub | wait =>
    simp only [Operands.command?, Option.map_eq_some_iff] at found
    obtain ⟨number, _, rfl⟩ := found
    trivial
  all_goals cases found
  all_goals trivial

theorem returns_statement :
    Returns (statement environment mode : Attempt (Desk H) Outcome) Outcome.Typed := by
  refine (sustains_true _).bind fun _ _ => (sustains_true _).bind fun code _ => ?_
  split
  next => exact sustains_pure trivial
  next =>
    refine (sustains_true _).bind fun word _ => ?_
    have operands : Returns
        (word.operandClasses.foldlM (operand environment mode) Operands.none :
          Attempt (Desk H) Operands)
        fun operands => word = .let → ∀ target value, operands.target = some target →
          operands.value = some value → target.isText = value.isText := by
      by_cases assigns : word = .let
      · subst assigns
        exact (returns_operands_let environment mode).weaken fun _ typed _ => typed
      · exact (sustains_true _).weaken fun _ _ same => absurd same assigns
    refine operands.bind fun operands typed => ?_
    split
    · exact returns_ownForm environment mode operands word
    · refine (sustains_true _).bind fun _ _ => ?_
      cases found : operands.command? word with
      | some command => exact sustains_pure (typed_command? found typed)
      | none => exact sustains_throw _

theorem returns_statements (turns : Nat) :
    Returns (statements environment mode turns : Attempt (Desk H) (Option Command))
      fun found => ∀ command, found = some command → command.Typed := by
  induction turns with
  | zero => exact sustains_throw _
  | succ turns inductionHypothesis =>
      refine (returns_statement environment mode).bind fun outcome typed => ?_
      cases outcome with
      | done => exact sustains_pure fun command absent => by cases absent
      | act command =>
          refine sustains_pure fun other same => ?_
          cases same
          exact typed
      | another => exact inductionHypothesis

/-- Whatever a line says, a command that it comes to is typed. -/
theorem returns_line :
    Returns (line environment mode : Attempt (Desk H) (Option Command))
      fun found => ∀ command, found = some command → command.Typed :=
  (sustains_true _).bind fun _ _ => returns_statements environment mode _

end Statement
end HomeBasic
