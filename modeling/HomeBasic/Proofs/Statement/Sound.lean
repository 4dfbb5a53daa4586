import HomeBasic.Proofs.Expression.Storable
import HomeBasic.Statement

/-!
# Commands that variables can take

What a line asks for names no variable that a record could not name, and gives none a
value that it could not hold. Whether the line is well formed plays no part in this, nor
whether it is carried out to its end.

Main statement: a line over sound variables comes to a sound command, if to any
(`sustains_line`).
-/

namespace HomeBasic

open Attempt (Sustains)

/-- The name of the place fits into a record. -/
def Target.Named : Target → Prop
  | .number name | .element name _ | .text name => name.length ≤ maxNameLength

/-- The command names and stores only what a record can hold. -/
def Command.Sound (size : WordSize) : Command → Prop
  | .assign target value => target.Named ∧ value.Storable size
  | .input target | .read target => target.Named
  | .loop name start limit => name.length ≤ maxNameLength ∧ size.Fits start ∧ size.Fits limit
  | _ => True

/-- A command is sound if there is one. -/
def Outcome.Sound (size : WordSize) : Outcome → Prop
  | .act command => command.Sound size
  | .done | .another => True

/-- Operands that a sound command can be made of. -/
structure Operands.Sound (size : WordSize) (operands : Operands) : Prop where
  target : ∀ target, operands.target = some target → target.Named
  value : ∀ value, operands.value = some value → value.Storable size

namespace Operands

variable {size : WordSize}

theorem sound_none : none.Sound size :=
  ⟨by simp [none], by simp [none]⟩

theorem Sound.withTarget {operands : Operands} (sound : operands.Sound size) {target : Target}
    (named : target.Named) : Operands.Sound size { operands with target := some target } := by
  refine ⟨fun other same => ?_, sound.value⟩
  cases same
  exact named

theorem Sound.withValue {operands : Operands} (sound : operands.Sound size) {value : Value}
    (storable : value.Storable size) :
    Operands.Sound size { operands with value := some value } := by
  refine ⟨sound.target, fun other same => ?_⟩
  cases same
  exact storable

theorem sound_command? {operands : Operands} {word : StatementWord} {command : Command}
    (sound : operands.Sound size) (run : operands.command? word = some command) :
    command.Sound size := by
  rcases operands with ⟨target, value⟩
  have named := sound.target
  have storable := sound.value
  cases word
  case «let» =>
    cases target <;> cases value <;> cases run
    exact ⟨named _ rfl, storable _ rfl⟩
  case input | read =>
    cases target <;> cases run
    exact named _ rfl
  case next =>
    rcases target with _ | ⟨name⟩ | _ | _ <;> cases run
    trivial
  case save | load | goto | gosub | wait =>
    simp only [command?, Option.map_eq_some_iff] at run
    obtain ⟨number, _, rfl⟩ := run
    trivial
  all_goals cases run
  all_goals trivial

end Operands

namespace Statement

variable {H : Type} [Console H] {savable : Nat → Prop} {holds : H → Prop}
  {environment : Environment} {capacity : Nat} {mode : Mode}

open Desk (Steady sustains_scanned)

/-! ## Names and printing -/

section
variable {size : WordSize}

omit [Console H] in
theorem sustains_variableName :
    Sustains (Steady size holds) (variableName : Attempt (Desk H) _)
      fun named => named.1.length ≤ maxNameLength := by
  refine (sustains_scanned _).bind fun code _ => Attempt.sustains_guard fun _ => ?_
  refine Desk.sustains_readName.bind fun (name, use) named => ?_
  exact Attempt.sustains_guard fun _ => Attempt.sustains_pure named

omit [Console H] in
theorem sustains_numberTarget :
    Sustains (Steady size holds) (numberTarget : Attempt (Desk H) Name)
      fun name => name.length ≤ maxNameLength := by
  refine sustains_variableName.bind fun (name, use) named => ?_
  refine (sustains_scanned _).bind fun _ _ => Attempt.sustains_guard fun _ => ?_
  exact (sustains_scanned _).bind fun _ _ => Attempt.sustains_pure named

omit [Console H] in
theorem sustains_printing {step : Attempt H Unit} (sustains : Sustains holds step fun _ => True) :
    Sustains (Steady size holds) (printing mode step) fun _ => True := by
  cases mode with
  | check => exact Attempt.sustains_pure trivial
  | execute => exact Desk.sustains_consulting sustains

end

section
variable (sound : environment.variableStore.Sound environment.config.word capacity)
  (upheld : Console.Upheld environment.config.word savable holds)
include sound upheld

/-! ## Operands -/

theorem sustains_expression :
    Expression.Yields environment holds (expression environment mode) :=
  Expression.sustains_evaluateWithin sound upheld _

theorem sustains_number :
    Sustains (Steady environment.config.word holds) (number environment mode)
      environment.config.word.Fits :=
  Expression.sustains_number (sustains_expression sound upheld)

theorem sustains_numberPair :
    Sustains (Steady environment.config.word holds) (numberPair environment mode)
      fun _ => True :=
  (sustains_number sound upheld).bind fun _ _ => (sustains_scanned _).bind fun _ _ =>
    (sustains_number sound upheld).bind fun _ _ => Attempt.sustains_pure trivial

theorem sustains_target :
    Sustains (Steady environment.config.word holds) (target environment mode)
      Target.Named := by
  have found : ∀ target : Target, target.Named →
      Sustains (Steady environment.config.word holds)
        (do let _ ← Desk.look; return target : Attempt (Desk H) Target) Target.Named :=
    fun _ named => (sustains_scanned _).bind fun _ _ => Attempt.sustains_pure named
  refine sustains_variableName.bind fun (name, use) named => ?_
  apply (sustains_scanned _).bind
  intro _ _
  cases use with
  | number =>
      refine .bind (Attempt.sustains_pure ?_) found
      exact named
  | text =>
      refine (sustains_scanned _).bind fun _ _ => .bind (Attempt.sustains_pure ?_) found
      exact named
  | array =>
      refine (Expression.sustains_subscript (sustains_expression sound upheld)).bind
        fun index _ => .bind (Attempt.sustains_pure ?_) found
      exact named
  | textFunction => exact (Attempt.sustains_throw _).bind fun _ (never : False) => never.elim

theorem sustains_operand {operands : Operands} (start : operands.Sound environment.config.word)
    (operandClass : OperandClass) :
    Sustains (Steady environment.config.word holds)
      (operand environment mode operands operandClass)
      (Operands.Sound environment.config.word) := by
  cases operandClass with
  | nothing | ownForm => exact Attempt.sustains_pure start
  | literal code => exact (sustains_scanned _).bind fun _ _ => Attempt.sustains_pure start
  | target =>
      exact (sustains_target sound upheld).bind fun target named =>
        Attempt.sustains_pure (start.withTarget named)
  | numberTarget =>
      refine sustains_numberTarget.bind fun name named => Attempt.sustains_pure ?_
      exact start.withTarget named
  | matching =>
      exact (sustains_expression sound upheld).bind fun value storable =>
        Attempt.sustains_guard fun _ => Attempt.sustains_pure (start.withValue storable)
  | number =>
      refine (sustains_number sound upheld).bind fun value fits => Attempt.sustains_pure ?_
      exact start.withValue fits
  | optionalNumber =>
      apply (sustains_scanned _).bind
      intro code _
      split
      · exact Attempt.sustains_pure start
      · refine (sustains_number sound upheld).bind fun value fits => Attempt.sustains_pure ?_
        exact start.withValue fits

/-- Operands are read one after the other, and each leaves those before it sound. -/
theorem sustains_operands {operands : Operands} (start : operands.Sound environment.config.word)
    (classes : List OperandClass) :
    Sustains (Steady environment.config.word holds)
      (classes.foldlM (operand environment mode) operands)
      (Operands.Sound environment.config.word) := by
  induction classes generalizing operands with
  | nil => exact Attempt.sustains_pure start
  | cons operandClass classes inductionHypothesis =>
      rw [List.foldlM_cons]
      exact (sustains_operand sound upheld start operandClass).bind fun _ start =>
        inductionHypothesis start

/-! ## Forms of their own -/

theorem sustains_printItem (code : Code) :
    Sustains (Steady environment.config.word holds) (printItem environment mode code)
      fun _ => True := by
  have ending : Sustains (Steady environment.config.word holds)
      (do
        let next ← Desk.look
        if next ≠ Code.semicolon ∧ next ≠ Code.comma ∧ next ≠ Code.newline then
          throw .syntaxError : Attempt (Desk H) Unit) fun _ => True := by
    apply (sustains_scanned _).bind
    intro next _
    split
    · exact Attempt.sustains_throw _
    · exact Attempt.sustains_pure trivial
  unfold printItem
  split
  · apply (sustains_scanned _).bind
    intro _ _
    refine (sustains_numberPair sound upheld).bind fun (row, column) _ => ?_
    exact (sustains_printing (Printing.sustains_moveTo upheld _ _)).bind
      fun _ _ => ending
  · split
    · apply (sustains_scanned _).bind
      intro _ _
      apply (sustains_number sound upheld).bind
      intro column _
      exact (sustains_printing (Printing.sustains_tab upheld _ _)).bind
        fun _ _ => ending
    · apply (sustains_expression sound upheld).bind
      intro value _
      exact (sustains_printing (Printing.sustains_codes upheld _)).bind
        fun _ _ => ending

theorem sustains_printItems (turns : Nat) (newline : Bool) :
    Sustains (Steady environment.config.word holds)
      (printItems environment mode turns newline) fun _ => True := by
  induction turns generalizing newline with
  | zero => exact Attempt.sustains_throw _
  | succ turns inductionHypothesis =>
      apply (sustains_scanned _).bind
      intro code _
      repeat' split
      · exact sustains_printing (Printing.sustains_newline upheld)
      · exact Attempt.sustains_pure trivial
      · exact (sustains_scanned _).bind fun _ _ => inductionHypothesis false
      · apply (sustains_scanned _).bind
        intro _ _
        exact (sustains_printing (Printing.sustains_comma upheld _)).bind
          fun _ _ => inductionHypothesis false
      · exact (sustains_printItem sound upheld code).bind fun _ _ => inductionHypothesis true

theorem sustains_dataItems (turns : Nat) :
    Sustains (Steady environment.config.word holds) (dataItems environment mode turns)
      fun _ => True := by
  induction turns with
  | zero => exact Attempt.sustains_throw _
  | succ turns inductionHypothesis =>
      apply (sustains_expression sound upheld).bind
      intro _ _
      apply (sustains_scanned _).bind
      intro _ _
      split
      · exact (sustains_scanned _).bind fun _ _ => inductionHypothesis
      · exact sustains_scanned _

theorem sustains_loopForm :
    Sustains (Steady environment.config.word holds) (loopForm environment mode)
      (Command.Sound environment.config.word) := by
  refine sustains_numberTarget.bind fun name named => (sustains_scanned _).bind fun _ _ => ?_
  apply (sustains_number sound upheld).bind
  intro start startFits
  apply (sustains_scanned _).bind
  intro _ _
  apply (sustains_number sound upheld).bind
  intro limit limitFits
  exact (sustains_scanned _).bind fun _ _ =>
    Attempt.sustains_pure ⟨named, startFits, limitFits⟩

theorem sustains_dimensionForm :
    Sustains (Steady environment.config.word holds) (dimensionForm environment mode)
      (Command.Sound environment.config.word) := by
  refine sustains_variableName.bind fun (name, use) _ => ?_
  refine Attempt.sustains_guard fun _ => (sustains_scanned _).bind fun _ _ => ?_
  refine (Expression.sustains_subscript (sustains_expression sound upheld)).bind
    fun maxIndex _ => ?_
  exact (sustains_scanned _).bind fun _ _ => Attempt.sustains_pure trivial

theorem sustains_ownForm (operands : Operands) (word : StatementWord) :
    Sustains (Steady environment.config.word holds) (ownForm environment mode operands word)
      (Outcome.Sound environment.config.word) := by
  cases word
  case «if» =>
    refine (sustains_scanned _).bind fun code _ => Attempt.sustains_guard fun _ => ?_
    apply Attempt.sustains_pure
    split <;> trivial
  case print =>
    exact Attempt.sustains_get.bind fun desk _ => (sustains_printItems sound upheld _ _).bind
      fun _ _ => Attempt.sustains_pure trivial
  case «for» =>
    exact (sustains_loopForm sound upheld).bind fun command named => Attempt.sustains_pure named
  case rem => exact (sustains_scanned _).bind fun _ _ => Attempt.sustains_pure trivial
  case dim =>
    exact (sustains_dimensionForm sound upheld).bind fun command named =>
      Attempt.sustains_pure named
  case data =>
    cases mode with
    | execute => exact (sustains_scanned _).bind fun _ _ => Attempt.sustains_pure trivial
    | check =>
        exact Attempt.sustains_get.bind fun desk _ => (sustains_dataItems sound upheld _).bind
          fun _ _ => Attempt.sustains_pure trivial
  case poke | beep =>
    refine (sustains_numberPair sound upheld).bind fun (first, second) _ => ?_
    exact (sustains_scanned _).bind fun _ _ => Attempt.sustains_pure trivial
  all_goals exact Attempt.sustains_throw _

/-! ## Lines -/

omit [Console H] sound upheld in
theorem sustains_readWord {size : WordSize} (code : Code) :
    Sustains (Steady size holds) (readWord code : Attempt (Desk H) StatementWord)
      fun _ => True := by
  unfold readWord
  split
  · exact (sustains_scanned _).bind fun _ _ => Attempt.sustains_pure trivial
  · split
    · exact Attempt.sustains_pure trivial
    · exact Attempt.sustains_throw _

theorem sustains_statement :
    Sustains (Steady environment.config.word holds) (statement environment mode)
      (Outcome.Sound environment.config.word) := by
  have cleared : ∀ desk : Desk H, Steady environment.config.word holds desk →
      Steady environment.config.word holds
        { desk with calculator := desk.calculator.clear } :=
    fun desk steady => ⟨by simp [BoundedStack.clear], steady.console⟩
  apply (Attempt.sustains_modify cleared).bind
  intro _ _
  apply (sustains_scanned _).bind
  intro code _
  split
  · exact Attempt.sustains_pure trivial
  · apply (sustains_readWord code).bind
    intro word _
    apply (sustains_operands sound upheld Operands.sound_none _).bind
    intro operands start
    split
    · exact sustains_ownForm sound upheld operands word
    · apply (sustains_scanned _).bind
      intro _ _
      cases found : operands.command? word with
      | some command => exact Attempt.sustains_pure (Operands.sound_command? start found)
      | none => exact Attempt.sustains_throw _

theorem sustains_statements (turns : Nat) :
    Sustains (Steady environment.config.word holds) (statements environment mode turns)
      fun found => ∀ command, found = some command → command.Sound environment.config.word := by
  induction turns with
  | zero => exact Attempt.sustains_throw _
  | succ turns inductionHypothesis =>
      apply (sustains_statement sound upheld).bind
      intro outcome outcomeSound
      cases outcome with
      | done => exact Attempt.sustains_pure fun command absent => by cases absent
      | act command =>
          refine Attempt.sustains_pure fun other same => ?_
          cases same
          exact outcomeSound
      | another => exact inductionHypothesis

/-- A line over sound variables comes to a sound command, if to any. -/
theorem sustains_line :
    Sustains (Steady environment.config.word holds) (line environment mode)
      fun found => ∀ command, found = some command → command.Sound environment.config.word :=
  Attempt.sustains_get.bind fun _ _ => sustains_statements sound upheld _

end

end Statement
end HomeBasic
