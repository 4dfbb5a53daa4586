import HomeBasic.Proofs.Expression.Parallel
import HomeBasic.Statement

/-!
# Two readings of one line

One line is read twice, at desks with the same codes left of it. As with expressions, the
readings keep together if what the two make of values is alike (`Parallel`): they read the
same words and operands, and print at the same places. The one difference is the mode. A
check goes on after every `IF`, where an execution may be done, and it reads the items of
a `DATA`, which an execution passes over.

Main statement: this is so for whole lines (`related_line`).
-/

namespace HomeBasic
namespace Statement

open Attempt (Related Exits)
open Expression (Pairing)
open Expression.Pairing (tracks_pure tracks_throw tracks_advance tracks_skip tracks_expect
  tracks_expectEnd)

/-! ## The parts of a statement -/

/-- The scanner after a look at the place of a statement word. -/
def atWord (scanner : Scanner) : Scanner :=
  { Scanner.look { scanner with wordExpected := true } with wordExpected := false }

theorem lookForWord_apply {H : Type} (desk : Desk H) :
    lookForWord desk =
      (.ok (atWord desk.scanner).current, { desk with scanner := atWord desk.scanner }) := rfl

/-- That a word belongs at a place plays no part in what is read there. -/
theorem abreast_atWord {scanner other : Scanner} {bound : Nat}
    (abreast : Scanner.Abreast bound scanner other) :
    Scanner.Abreast bound (atWord scanner) (atWord other) := by
  have placed : Scanner.Abreast bound { scanner with wordExpected := true }
      { other with wordExpected := true } := ⟨abreast.line, abreast.within⟩
  exact ⟨placed.look.line, placed.look.within⟩

/-- What follows the word of a statement. -/
def afterWord {H : Type} [Console H] (environment : Environment) (mode : Mode)
    (word : StatementWord) : Attempt (Desk H) Outcome := do
  let operands ← word.operandClasses.foldlM (operand environment mode) Operands.none
  if word.operandClasses.contains .ownForm then
    ownForm environment mode operands word
  else
    Desk.expectEnd
    match operands.command? word with
    | some command => return .act command
    | none => throw .syntaxError

section
variable {H : Type} [Console H] (environment : Environment) (mode : Mode)

/-- A statement is its word and what follows it. -/
theorem statement_apply (desk : Desk H) :
    statement environment mode desk =
      (lookForWord >>= fun code =>
        if code = Code.newline then pure .done
        else readWord code >>= afterWord environment mode)
      { desk with calculator := desk.calculator.clear } := rfl

end

/-! ## What is alike -/

/-- What a `PRINT` prints at one go. -/
inductive Printed
  | value (value : Value)
  | newline
  | comma
  | tab (column : Int)
  | place (row column : Int)

/-- Prints it on lines of a width. -/
def Printed.print {H : Type} [Console H] (width : Nat) : Printed → Attempt H Unit
  | value shown => Printing.value shown
  | newline => Printing.newline
  | comma => Printing.comma width
  | tab column => Printing.tab width column
  | place row column => Printing.moveTo row column

/-- What printing comes to in a mode. -/
def spoken {H : Type} (mode : Mode) (step : Attempt H Unit) : Attempt H Unit :=
  match mode with
  | .check => pure ()
  | .execute => step

theorem printing_eq {H : Type} [Console H] (mode : Mode) (step : Attempt H Unit) :
    printing mode step = Desk.consulting (spoken mode step) := by
  cases mode <;> rfl

/-- Two ways of reading a line that keep to a pairing. -/
structure Parallel {H K : Type} [Console H] [Console K] (pairing : Pairing H K)
    (first second : Environment) (firstMode secondMode : Mode) : Prop
    extends Expression.Parallel pairing first second firstMode secondMode where
  /-- The second side may only stop before the first where the first may fail as it likes. -/
  modes : secondMode = firstMode ∨ firstMode = .check ∧ ∀ fault, pairing.left fault
  /-- Two executions agree on values. -/
  exactly : firstMode = .execute → ∀ left right, pairing.Alike left right → left = right
  prints : ∀ printed other : Printed, (firstMode = .execute → printed = other) →
    Related pairing.toExits pairing.Meet (spoken firstMode (printed.print first.config.width))
      (spoken secondMode (other.print first.config.width))
      fun _ console _ terminal => pairing.Meet console terminal

section
variable {H K : Type} (pairing : Pairing H K)

/-- The same place, at indices that are alike. -/
inductive TargetAlike : Target → Target → Prop
  | number (name : Name) : TargetAlike (.number name) (.number name)
  | text (name : Name) : TargetAlike (.text name) (.text name)
  | element (name : Name) {index other : Int} :
      pairing.Alike (.number index) (.number other) →
      TargetAlike (.element name index) (.element name other)

/-- The same operands have been read, and they are alike. -/
structure OperandsAlike (operands others : Operands) : Prop where
  target : Option.Rel (TargetAlike pairing) operands.target others.target
  value : Option.Rel pairing.Alike operands.value others.value

/--
What two statements come to: both lead on along a line with fewer codes left, or neither
does, or the second one is done, and the first may then fail as it likes.
-/
inductive Leads (bound : Nat) : Outcome → Desk H → Outcome → Desk K → Prop
  | on {fewer : Nat} {desk : Desk H} {opposite : Desk K} :
      fewer < bound → pairing.Along False fewer desk opposite →
      Leads bound .another desk .another opposite
  | ends {outcome other : Outcome} {desk : Desk H} {opposite : Desk K} :
      outcome ≠ .another → other ≠ .another → Leads bound outcome desk other opposite
  | leaves {outcome : Outcome} {desk : Desk H} {opposite : Desk K} :
      (∀ fault, pairing.left fault) → Leads bound outcome desk .done opposite

variable {pairing}

theorem TargetAlike.isText {target other : Target} (alike : TargetAlike pairing target other) :
    other.isText = target.isText := by
  cases alike <;> rfl

theorem OperandsAlike.none : OperandsAlike pairing .none .none :=
  ⟨.none, .none⟩

theorem OperandsAlike.withTarget {operands others : Operands} {target other : Target}
    (alike : OperandsAlike pairing operands others) (targets : TargetAlike pairing target other) :
    OperandsAlike pairing { operands with target := some target }
      { others with target := some other } :=
  ⟨.some targets, alike.value⟩

theorem OperandsAlike.withValue {operands others : Operands} {value other : Value}
    (alike : OperandsAlike pairing operands others) (values : pairing.Alike value other) :
    OperandsAlike pairing { operands with value := some value }
      { others with value := some other } :=
  ⟨alike.target, .some values⟩

end

section
variable {H K : Type} [Console H] [Console K] {pairing : Pairing H K}
  {first second : Environment} {firstMode secondMode : Mode} {bound : Nat}
  (parallel : Parallel pairing first second firstMode secondMode)
include parallel

theorem OperandsAlike.number? {operands others : Operands}
    (alike : OperandsAlike pairing operands others) :
    Option.Rel (fun left right => pairing.Alike (.number left) (.number right))
      operands.number? others.number? := by
  obtain ⟨target, value⟩ := operands
  obtain ⟨target', value'⟩ := others
  obtain ⟨_, values⟩ := alike
  cases values with
  | none => exact .none
  | @some value other alike =>
      have kind := parallel.isText _ _ alike
      rcases value with value | codes <;> rcases other with other | others <;> try cases kind
      · exact .some alike
      · exact .none

/-- The same words make a command of operands that are alike. -/
theorem OperandsAlike.isSome_command? {operands others : Operands}
    (alike : OperandsAlike pairing operands others) (word : StatementWord) :
    (others.command? word).isSome = (operands.command? word).isSome := by
  have numbers : others.number?.isSome = operands.number?.isSome := by
    have related := alike.number? parallel
    generalize operands.number? = number at related ⊢
    generalize others.number? = other at related ⊢
    cases related <;> rfl
  obtain ⟨target, value⟩ := operands
  obtain ⟨target', value'⟩ := others
  obtain ⟨targets, values⟩ := alike
  cases word
  case «let» => cases targets <;> cases values <;> rfl
  case input | read => cases targets <;> rfl
  case next => rcases targets with ⟨_ | _ | _⟩ | _ <;> rfl
  case save | load | goto | gosub | wait =>
    simp only [Operands.command?, Option.isSome_map, numbers]
  all_goals rfl

/-! ## Operands -/

theorem tracks_expression :
    pairing.Tracks False bound (bound - 1) pairing.Alike (expression first firstMode)
      (expression second secondMode) := by
  unfold expression Expression.evaluate
  rw [parallel.config]
  exact Expression.tracks_evaluateWithin parallel.toParallel _ bound

theorem tracks_number :
    pairing.Tracks False bound (bound - 1)
      (fun number other => pairing.Alike (.number number) (.number other))
      (number first firstMode) (number second secondMode) :=
  Expression.tracks_number parallel.toParallel fun _ => tracks_expression parallel

theorem tracks_subscript :
    pairing.Tracks False bound bound
      (fun index other => pairing.Alike (.number index) (.number other))
      (Expression.subscript (expression first firstMode))
      (Expression.subscript (expression second secondMode)) :=
  Expression.tracks_subscript parallel.toParallel fun _ => tracks_expression parallel

theorem tracks_numberPair :
    pairing.Tracks False bound (bound - 1)
      (fun pair other => pairing.Alike (.number pair.1) (.number other.1) ∧
        pairing.Alike (.number pair.2) (.number other.2))
      (numberPair first firstMode) (numberPair second secondMode) := by
  apply (tracks_number parallel).bind
  intro left left' lefts
  apply (tracks_expect parallel.both _).bind
  intro _ _ _
  apply ((tracks_number parallel).mono _).bind
  · intro right right' rights
    exact tracks_pure ⟨lefts, rights⟩
  · omega

theorem tracks_variableName :
    pairing.Tracks False bound bound
      (fun named other => named = other ∧ 0 < named.1.length) variableName variableName := by
  refine Pairing.tracks_look_bind fun code => ?_
  refine Related.guard (parallel.both _) fun letter => ?_
  have more : code ≠ Code.newline := by
    rintro rfl
    exact letter rfl
  apply (Pairing.tracksAt_readName parallel.both more).bind
  rintro ⟨name, use⟩ _ ⟨rfl, some⟩
  exact Related.guard (parallel.both _) fun _ => tracks_pure ⟨rfl, some⟩

theorem tracks_numberTarget :
    pairing.Tracks False bound (bound - 1) Eq numberTarget numberTarget := by
  apply (tracks_variableName parallel).bind
  rintro ⟨name, use⟩ _ ⟨rfl, some⟩
  apply ((tracks_skip parallel.both _).mono _).bind
  · intro _ _ _
    refine Related.guard (parallel.both _) fun _ => ?_
    exact Pairing.tracks_look_bind fun code => (tracks_pure rfl).at code
  · dsimp only at some ⊢
    omega

theorem tracks_target :
    pairing.Tracks False bound (bound - 1) (TargetAlike pairing) (target first firstMode)
      (target second secondMode) := by
  apply (tracks_variableName parallel).bind
  rintro ⟨name, use⟩ _ ⟨rfl, some⟩
  have found : ∀ target other, TargetAlike pairing target other →
      pairing.Tracks False (bound - 1) (bound - 1) (TargetAlike pairing)
        (do let _ ← Desk.look; return target) (do let _ ← Desk.look; return other) :=
    fun _ _ alike => Pairing.tracks_look_bind fun code => (tracks_pure alike).at code
  apply ((tracks_skip parallel.both _).mono (_ : _ ≤ bound - 1)).bind
  · intro _ _ _
    cases use with
    | number => exact (tracks_pure (.number name)).bind found
    | text =>
        exact ((tracks_skip parallel.both 1).mono (Nat.sub_le _ _)).bind fun _ _ _ =>
          (tracks_pure (.text name)).bind found
    | array =>
        exact (tracks_subscript parallel).bind fun _ _ alike =>
          (tracks_pure (.element name alike)).bind found
    | textFunction => exact (tracks_throw parallel.both _).bind found
  · dsimp only at some ⊢
    omega

theorem tracks_operand {operands others : Operands} (alike : OperandsAlike pairing operands others)
    (operandClass : OperandClass) :
    pairing.Tracks False bound bound (OperandsAlike pairing)
      (operand first firstMode operands operandClass)
      (operand second secondMode others operandClass) := by
  have numbers : pairing.Tracks False bound bound (OperandsAlike pairing)
      (do return { operands with value := some (.number (← number first firstMode)) })
      (do return { others with value := some (.number (← number second secondMode)) }) :=
    ((tracks_number parallel).mono (Nat.sub_le _ _)).bind fun _ _ values =>
      tracks_pure (alike.withValue values)
  cases operandClass with
  | nothing | ownForm => exact tracks_pure alike
  | literal code =>
      exact ((tracks_expect parallel.both code).mono (Nat.sub_le _ _)).bind fun _ _ _ =>
        tracks_pure alike
  | target =>
      exact ((tracks_target parallel).mono (Nat.sub_le _ _)).bind fun _ _ targets =>
        tracks_pure (alike.withTarget targets)
  | numberTarget =>
      apply ((tracks_numberTarget parallel).mono (Nat.sub_le _ _)).bind
      rintro name _ rfl
      exact tracks_pure (alike.withTarget (.number name))
  | matching =>
      apply ((tracks_expression parallel).mono (Nat.sub_le _ _)).bind
      intro value other values
      have kinds : others.target.any (·.isText != other.isText) =
          operands.target.any (·.isText != value.isText) := by
        have targets := alike.target
        generalize operands.target = target at targets ⊢
        generalize others.target = place at targets ⊢
        cases targets with
        | none => rfl
        | some targets =>
            simp only [Option.any_some, targets.isText, parallel.isText _ _ values]
      rw [kinds]
      exact Related.guard (parallel.both _) fun _ => tracks_pure (alike.withValue values)
  | number => exact numbers
  | optionalNumber =>
      refine Pairing.tracks_look_bind fun code => Pairing.Tracks.at ?_ code
      split
      · exact tracks_pure alike
      · exact numbers

theorem tracks_operands {operands others : Operands} (alike : OperandsAlike pairing operands others)
    (classes : List OperandClass) :
    pairing.Tracks False bound bound (OperandsAlike pairing)
      (classes.foldlM (operand first firstMode) operands)
      (classes.foldlM (operand second secondMode) others) := by
  induction classes generalizing operands others with
  | nil => exact tracks_pure alike
  | cons operandClass classes inductionHypothesis =>
      rw [List.foldlM_cons, List.foldlM_cons]
      exact (tracks_operand parallel alike operandClass).bind fun _ _ alike =>
        inductionHypothesis alike

/-! ## Forms of their own -/

theorem tracks_printing (printed other : Printed) (same : firstMode = .execute → printed = other) :
    pairing.Tracks False bound bound (fun _ _ => True)
      (printing firstMode (printed.print first.config.width))
      (printing secondMode (other.print second.config.width)) := by
  rw [printing_eq, printing_eq, parallel.config]
  intro desk opposite along
  have prints := parallel.prints printed other same desk.console opposite.console along.console
  simp only [Desk.consulting, Attempt.within_apply]
  generalize spoken firstMode (printed.print first.config.width) desk.console = outcome
    at prints ⊢
  generalize spoken secondMode (other.print first.config.width) opposite.console = arrival
    at prints ⊢
  rcases outcome with ⟨fault | _, console⟩ <;> rcases arrival with ⟨fault' | _, terminal⟩
  · exact prints
  · exact prints
  · exact prints
  · exact ⟨trivial, along.scanner, along.same, along.capacity, along.pending, prints⟩

theorem tracks_printItem (code : Code) :
    pairing.Tracks False bound (bound - 1) (fun _ _ => True)
      (printItem first firstMode code) (printItem second secondMode code) := by
  have exactly := fun execute left right alike =>
    Value.number.inj (parallel.exactly execute (.number left) (.number right) alike)
  have ending : pairing.Tracks False (bound - 1) (bound - 1) (fun _ _ => True)
      (do
        let next ← Desk.look
        if next ≠ Code.semicolon ∧ next ≠ Code.comma ∧ next ≠ Code.newline then
          throw .syntaxError)
      (do
        let next ← Desk.look
        if next ≠ Code.semicolon ∧ next ≠ Code.comma ∧ next ≠ Code.newline then
          throw .syntaxError) := by
    refine Pairing.tracks_look_bind fun code => Pairing.Tracks.at ?_ code
    split
    · exact tracks_throw parallel.both _
    · exact tracks_pure trivial
  unfold printItem
  split
  · apply ((tracks_advance parallel.both).mono (Nat.sub_le bound 1)).bind
    intro _ _ _
    apply (tracks_numberPair parallel).bind
    rintro ⟨row, column⟩ ⟨row', column'⟩ ⟨rows, columns⟩
    dsimp only at rows columns
    refine (tracks_printing parallel (.place row column) (.place row' column')
      fun execute => ?_).bind fun _ _ _ => ending
    rw [exactly execute _ _ rows, exactly execute _ _ columns]
  · split
    · apply ((tracks_advance parallel.both).mono (Nat.sub_le bound 1)).bind
      intro _ _ _
      apply (tracks_number parallel).bind
      intro column column' columns
      refine (tracks_printing parallel (.tab column) (.tab column')
        fun execute => ?_).bind fun _ _ _ => ending
      rw [exactly execute _ _ columns]
    · apply (tracks_expression parallel).bind
      intro value value' values
      refine (tracks_printing parallel (.value value) (.value value')
        fun execute => ?_).bind fun _ _ _ => ending
      rw [parallel.exactly execute _ _ values]

/-- Every item takes up a code of the line, so any numbers of turns above those left will do. -/
theorem tracks_printItems {turns others : Nat} (newline : Bool) (enough : bound < turns)
    (suffice : bound < others) :
    pairing.Tracks False bound bound (fun _ _ => True)
      (printItems first firstMode turns newline) (printItems second secondMode others newline) := by
  induction turns generalizing bound others newline with
  | zero => omega
  | succ turns inductionHypothesis =>
      obtain ⟨others, rfl⟩ : ∃ fewer, others = fewer + 1 := ⟨others - 1, by omega⟩
      refine Pairing.tracks_look_bind fun code => ?_
      by_cases ends : code = Code.newline
      · subst ends
        refine Pairing.Tracks.at ?_ _
        cases newline with
        | false => exact tracks_pure trivial
        | true => exact tracks_printing parallel .newline .newline fun _ => rfl
      refine Pairing.related_of_pos ends fun some => Pairing.Tracks.at ?_ code
      have further : ∀ newline, pairing.Tracks False (bound - 1) bound (fun _ _ => True)
          (printItems first firstMode turns newline)
          (printItems second secondMode others newline) := fun newline =>
        (inductionHypothesis newline (by omega) (by omega)).mono (Nat.sub_le _ _)
      simp only [if_neg ends]
      split
      · exact (tracks_advance parallel.both).bind fun _ _ _ => further false
      · split
        · refine (tracks_advance parallel.both).bind fun _ _ _ => ?_
          exact (tracks_printing parallel .comma .comma fun _ => rfl).bind fun _ _ _ =>
            further false
        · exact (tracks_printItem parallel code).bind fun _ _ _ => further true

theorem tracks_dataItems {turns others : Nat} (enough : bound < turns) (suffice : bound < others) :
    pairing.Tracks False bound bound (fun _ _ => True)
      (dataItems first firstMode turns) (dataItems second secondMode others) := by
  induction turns generalizing bound others with
  | zero => omega
  | succ turns inductionHypothesis =>
      obtain ⟨others, rfl⟩ : ∃ fewer, others = fewer + 1 := ⟨others - 1, by omega⟩
      apply ((tracks_expression parallel).mono (Nat.sub_le bound 1)).bind
      intro _ _ _
      refine Pairing.tracks_look_bind fun code => ?_
      split
      next comma =>
        subst comma
        refine Pairing.related_of_pos (by decide) fun some => Pairing.Tracks.at ?_ _
        refine (tracks_advance parallel.both).bind fun _ _ _ => ?_
        exact (inductionHypothesis (by omega) (by omega)).mono (Nat.sub_le _ _)
      next =>
        refine Pairing.Tracks.at ?_ code
        exact (tracks_expectEnd parallel.both).weaken (.refl _) (fun _ _ => id)
          fun _ _ _ _ both => ⟨trivial, both.2⟩

theorem tracks_loopForm :
    pairing.Tracks False bound bound (fun _ _ => True) (loopForm first firstMode)
      (loopForm second secondMode) := by
  have expected : ∀ code, pairing.Tracks False bound bound Eq (Desk.expect code)
      (Desk.expect code) := fun code => (tracks_expect parallel.both code).mono (Nat.sub_le _ _)
  have numbers := (tracks_number parallel).mono (Nat.sub_le bound 1)
  apply ((tracks_numberTarget parallel).mono (Nat.sub_le _ _)).bind
  rintro name _ rfl
  refine (expected _).bind fun _ _ _ => numbers.bind fun start _ _ => ?_
  refine (expected _).bind fun _ _ _ => numbers.bind fun limit _ _ => ?_
  exact (tracks_expectEnd parallel.both).bind fun _ _ _ => tracks_pure trivial

theorem tracks_dimensionForm :
    pairing.Tracks False bound bound (fun _ _ => True) (dimensionForm first firstMode)
      (dimensionForm second secondMode) := by
  apply (tracks_variableName parallel).bind
  rintro ⟨name, use⟩ _ ⟨rfl, _⟩
  refine Related.guard (parallel.both _) fun _ => ?_
  apply ((tracks_skip parallel.both _).mono (Nat.sub_le _ _)).bind
  intro _ _ _
  apply (tracks_subscript parallel).bind
  intro maxIndex _ _
  exact (tracks_expectEnd parallel.both).bind fun _ _ _ => tracks_pure trivial

omit [Console H] [Console K] parallel in
/-- Each side has more turns than there are codes left on the line. -/
theorem related_turnsLeft_bind {α β : Type} {after : α → Desk H → β → Desk K → Prop}
    {onLeft : Nat → Attempt (Desk H) α} {onRight : Nat → Attempt (Desk K) β}
    (rest : ∀ bound turns others, bound < turns → bound < others →
      Related pairing.toExits (pairing.Along False bound) (onLeft turns) (onRight others) after) :
    Related pairing.toExits (pairing.Along False bound) (turnsLeft >>= onLeft)
      (turnsLeft >>= onRight) after := by
  intro desk opposite along
  have turns : desk.scanner.line.length ≤ desk.scanner.rest.length :=
    desk.scanner.codesLeft_le_length
  have others : opposite.scanner.line.length ≤ opposite.scanner.rest.length :=
    opposite.scanner.codesLeft_le_length
  rw [along.scanner.line] at others
  have tight : pairing.Along False desk.scanner.line.length desk opposite :=
    { along with scanner := ⟨along.scanner.line, Nat.le_refl _⟩ }
  exact rest _ _ _ (Nat.lt_succ_of_le turns) (Nat.lt_succ_of_le others) desk opposite tight

omit [Console H] [Console K] parallel in
/-- Steps that keep to the line may end their statements. -/
theorem related_ends {α β : Type} {same : α → β → Prop} {middle reached : Nat}
    {left : Attempt (Desk H) α} {right : Attempt (Desk K) β} {outcome : α → Outcome}
    {arrival : β → Outcome} (tracks : pairing.Tracks False bound middle same left right)
    (first : ∀ value, outcome value ≠ .another) (second : ∀ value, arrival value ≠ .another) :
    Related pairing.toExits (pairing.Along False bound) (do return outcome (← left))
      (do return arrival (← right)) (Leads pairing reached) :=
  tracks.andThen fun value other _ _ _ _ => .ends (first value) (second other)

/-- An execution passes over the items of a `DATA`, and a check reads them. -/
theorem related_data {operands others : Operands} {reached : Nat} :
    Related pairing.toExits (pairing.Along False bound) (ownForm first firstMode operands .data)
      (ownForm second secondMode others .data) (Leads pairing reached) := by
  have checks : ∀ {bound turns others}, bound < turns → bound < others →
      Related pairing.toExits (pairing.Along False bound)
        (do dataItems first firstMode turns; return .done)
        (do dataItems second secondMode others; return .done) (Leads pairing reached) :=
    fun enough suffice => related_ends (tracks_dataItems parallel enough suffice)
      (fun _ => Outcome.noConfusion) fun _ => Outcome.noConfusion
  rcases parallel.modes with rfl | ⟨rfl, left⟩
  · cases secondMode with
    | check => exact related_turnsLeft_bind fun _ _ _ => checks
    | execute => exact fun _ _ _ => .ends Outcome.noConfusion Outcome.noConfusion
  · cases secondMode with
    | check => exact related_turnsLeft_bind fun _ _ _ => checks
    | execute =>
        exact fun _ _ _ => Attempt.together_of_ok left (fun _ _ => .leaves left) _

theorem related_ownForm {operands others : Operands} {reached : Nat} {word : StatementWord}
    (alike : OperandsAlike pairing operands others) (leads : word = .if → bound < reached) :
    Related pairing.toExits (pairing.Along False bound) (ownForm first firstMode operands word)
      (ownForm second secondMode others word) (Leads pairing reached) := by
  have acts : ∀ {left : Attempt (Desk H) Command} {right : Attempt (Desk K) Command},
      pairing.Tracks False bound bound (fun _ _ => True) left right →
        Related pairing.toExits (pairing.Along False bound) (do return .act (← left))
          (do return .act (← right)) (Leads pairing reached) := fun tracks =>
    related_ends tracks (fun _ => Outcome.noConfusion) fun _ => Outcome.noConfusion
  cases word
  case «if» =>
    refine Pairing.related_look_bind fun code => ?_
    refine Related.guard (parallel.both _) fun _ desk opposite both => ?_
    have along := both.1
    rcases parallel.modes with rfl | ⟨rfl, left⟩
    · cases secondMode with
      | check => exact .on (leads rfl) along
      | execute =>
          have numbers := alike.number? parallel
          have same : others.number? = operands.number? := by
            generalize operands.number? = number at numbers ⊢
            generalize others.number? = other at numbers ⊢
            cases numbers with
            | none => rfl
            | some alike => rw [Value.number.inj (parallel.exactly rfl _ _ alike)]
          rw [same]
          by_cases zero : operands.number? = some 0
          · simp only [zero, and_self, if_true]
            exact .ends Outcome.noConfusion Outcome.noConfusion
          · simp only [zero, and_false, if_false]
            exact .on (leads rfl) along
    · by_cases stops : secondMode = .execute ∧ others.number? = some 0
      · simp only [if_pos stops]
        exact .leaves left
      · simp only [if_neg stops]
        exact .on (leads rfl) along
  case print =>
    refine related_turnsLeft_bind fun bound turns others enough suffice => ?_
    exact related_ends (tracks_printItems parallel true enough suffice)
      (fun _ => Outcome.noConfusion) fun _ => Outcome.noConfusion
  case «for» => exact acts (tracks_loopForm parallel)
  case rem => exact fun _ _ _ => .ends Outcome.noConfusion Outcome.noConfusion
  case dim => exact acts (tracks_dimensionForm parallel)
  case data => exact related_data parallel
  case poke | beep =>
    refine (tracks_numberPair parallel).andThen fun _ _ _ => ?_
    exact related_ends (tracks_expectEnd parallel.both) (fun _ => Outcome.noConfusion)
      fun _ => Outcome.noConfusion
  all_goals exact fun _ _ _ => .inl (parallel.both _)

/-! ## Lines -/

theorem related_afterWord {word : StatementWord} {reached : Nat}
    (leads : word = .if → bound < reached) :
    Related pairing.toExits (pairing.Along False bound) (afterWord first firstMode word)
      (afterWord second secondMode word) (Leads pairing reached) := by
  refine (tracks_operands parallel .none _).andThen fun operands others alike => ?_
  split
  · exact related_ownForm parallel alike leads
  · refine (tracks_expectEnd parallel.both).andThen fun _ _ _ => ?_
    have commands := alike.isSome_command? parallel word
    cases first : operands.command? word <;> cases second : others.command? word <;>
      simp only [first, second, Option.isSome_some, Option.isSome_none, reduceCtorEq] at commands
    · exact fun _ _ _ => .inl (parallel.both _)
    · exact fun _ _ _ => .ends Outcome.noConfusion Outcome.noConfusion

omit parallel [Console H] [Console K] in
theorem related_lookForWord_bind {α β : Type} {after : α → Desk H → β → Desk K → Prop}
    {onLeft : Code → Attempt (Desk H) α} {onRight : Code → Attempt (Desk K) β}
    (rest : ∀ code, Related pairing.toExits
      (fun desk opposite =>
        pairing.Along False bound desk opposite ∧ desk.scanner.current = code)
      (onLeft code) (onRight code) after) :
    Related pairing.toExits (pairing.Along False bound) (lookForWord >>= onLeft)
      (lookForWord >>= onRight) after := by
  intro desk opposite along
  have looked := abreast_atWord along.scanner
  rw [Attempt.bind_apply, Attempt.bind_apply, lookForWord_apply, lookForWord_apply]
  dsimp only
  rw [looked.current]
  exact rest _ _ _
    ⟨⟨looked, False.elim, along.capacity, along.pending, along.console⟩, rfl⟩

/-- A statement that leads on has taken up the word that opens it. -/
theorem related_statement :
    Related pairing.toExits (pairing.Along False bound) (statement first firstMode)
      (statement second secondMode) (Leads pairing bound) := by
  intro desk opposite along
  have cleared : pairing.Along False bound { desk with calculator := desk.calculator.clear }
      { opposite with calculator := opposite.calculator.clear } :=
    ⟨along.scanner, False.elim, along.capacity, .nil, along.console⟩
  rw [statement_apply, statement_apply]
  refine related_lookForWord_bind (fun code => ?_) _ _ cleared
  by_cases ends : code = Code.newline
  · subst ends
    exact fun _ _ _ => .ends Outcome.noConfusion Outcome.noConfusion
  refine Pairing.related_of_pos ends fun some => ?_
  refine Related.weaken ?_ (.refl _) (fun _ _ => And.left) fun _ _ _ _ => id
  simp only [if_neg ends]
  unfold readWord
  split
  next word _ =>
    have read : pairing.Tracks False bound (bound - 1) Eq
        (do Desk.advance; return word) (do Desk.advance; return word) :=
      (tracks_advance parallel.both).bind fun _ _ _ => tracks_pure rfl
    apply read.andThen
    rintro word _ rfl
    exact related_afterWord parallel fun _ => Nat.sub_lt some Nat.zero_lt_one
  next =>
    split
    next =>
      have elsewhere : StatementWord.let ≠ .if := StatementWord.noConfusion
      exact related_afterWord parallel fun same => absurd same elsewhere
    next => exact fun _ _ _ => .inl (parallel.both _)

/-- Every statement that leads on takes up a code of the line. -/
theorem related_statements {turns others : Nat} (enough : bound < turns)
    (suffice : bound < others) :
    Related pairing.toExits (pairing.Along False bound) (statements first firstMode turns)
      (statements second secondMode others) fun _ _ _ _ => True := by
  induction turns generalizing bound others with
  | zero => omega
  | succ turns inductionHypothesis =>
      obtain ⟨others, rfl⟩ : ∃ fewer, others = fewer + 1 := ⟨others - 1, by omega⟩
      refine Related.bind (related_statement parallel) fun outcome other desk opposite leads => ?_
      cases leads with
      | on fewer along => exact inductionHypothesis (by omega) (by omega) desk opposite along
      | ends first second => cases outcome <;> cases other <;> trivial
      | leaves left =>
          exact Attempt.together_of_ok left (fun _ _ => trivial) _

/-- Readings of one line keep together from any two places where it stands. -/
theorem related_line :
    Related pairing.toExits (pairing.Along False bound) (line first firstMode)
      (line second secondMode) fun _ _ _ _ => True :=
  related_turnsLeft_bind fun _ _ _ => related_statements parallel

end
end Statement
end HomeBasic
