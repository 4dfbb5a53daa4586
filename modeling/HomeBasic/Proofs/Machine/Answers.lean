import HomeBasic.Machine.Run
import HomeBasic.Proofs.Console.Keys

/-!
# What comes of an entered text

A text that is entered for an `INPUT` is taken as it is typed, or for its value, or it cannot be
used and is marked at a column, or it fails. What the machine does is worked out from the text,
the variables and the random numbers alone, and no key is taken for it.

Main statements: every text is answered, as the machine answers it (`exists_answers`), in one way
(`Answers.unique`), and no key is taken for that (`Answers.keys_eq`).
-/

namespace HomeBasic

/-- What comes of a text that is entered: a value, a mark at a column of the text, or a fault. -/
inductive Answer
  | value (value : Value)
  | marked (column : Nat)
  | failed (fault : Fault)

section
variable {H : Type} [Console H] (environment : Environment) (text : List Code) (console : H)

/-- The expression that a text opens with, evaluated. -/
def evaluated : Except Fault Value × Desk H :=
  Expression.evaluate environment .execute
    ⟨.ofBytes (crunch text).bytes 0, .empty environment.config.calculatorDepth, console⟩

/--
What enter makes of a text. A text is taken as it is typed, unless there is a quote in it, and a
number is the value of an expression that fills the text. The first quote is marked, or the place
where the syntax is wrong, be it of the expression, of its type, or of what follows it.
-/
inductive Answers : (isText : Bool) → Answer → H → Prop
  | text : Code.quote ∉ text → Answers true (.value (.text text)) console
  | quoted {front behind : List Code} :
      text = front ++ Code.quote :: behind → Code.quote ∉ front →
      Answers true (.marked front.length) console
  | number {value : Int} {desk : Desk H} :
      evaluated environment text console = (.ok (.number value), desk) →
      desk.scanner.look.current = Code.newline →
      Answers false (.value (.number value)) desk.console
  | mistyped {codes : List Code} {desk : Desk H} :
      evaluated environment text console = (.ok (.text codes), desk) →
      desk.scanner.look.current = Code.newline →
      Answers false (.marked ((crunch text).column desk.scanner.look.position)) desk.console
  | trailing {value : Value} {desk : Desk H} :
      evaluated environment text console = (.ok value, desk) →
      desk.scanner.look.current ≠ Code.newline →
      Answers false (.marked ((crunch text).column desk.scanner.look.position)) desk.console
  | wrong {desk : Desk H} :
      evaluated environment text console = (.error .syntaxError, desk) →
      Answers false (.marked ((crunch text).column desk.scanner.position)) desk.console
  | fault {fault : Fault} {desk : Desk H} :
      evaluated environment text console = (.error fault, desk) → fault ≠ .syntaxError →
      Answers false (.failed fault) desk.console

/-- A text is answered in one way. -/
theorem Answers.unique {environment : Environment} {text : List Code} {console reached after : H}
    {isText : Bool} {answer other : Answer}
    (first : Answers environment text console isText answer reached)
    (second : Answers environment text console isText other after) :
    other = answer ∧ after = reached := by
  have column {front behind : List Code} (cut : text = front ++ Code.quote :: behind)
      (absent : Code.quote ∉ front) : text.idxOf Code.quote = front.length := by
    rw [cut, List.idxOf_append_of_notMem absent, List.idxOf_cons_self, Nat.add_zero]
  cases first with
  | text plain =>
      cases second with
      | text => exact ⟨rfl, rfl⟩
      | quoted cut => exact absurd (by simp [cut]) plain
  | quoted cut absent =>
      cases second with
      | text plain => exact absurd (by simp [cut]) plain
      | quoted again missing =>
          rw [← column cut absent, ← column again missing]
          exact ⟨rfl, rfl⟩
  -- Two evaluations of one text are one, and the ways to answer it exclude each other.
  | number | mistyped | trailing | wrong | fault => cases second <;> simp_all

/-- No key is taken to answer a text. -/
theorem Answers.keys_eq {keys : H → List Key} (queued : Console.Queued keys)
    {environment : Environment} {text : List Code} {console reached : H} {isText : Bool}
    {answer : Answer} (answers : Answers environment text console isText answer reached) :
    keys reached = keys console := by
  have kept {result : Except Fault Value} {desk : Desk H}
      (run : evaluated environment text console = (result, desk)) :
      keys desk.console = keys console := by
    have sustained := Expression.sustains_console environment .execute
      fun largest other (same : keys other = keys console) =>
        (queued.random largest other).trans same
    have reached : keys (evaluated environment text console).2.console = keys console :=
      sustained.kept rfl
    rwa [run] at reached
  cases answers with
  | text | quoted => rfl
  | number run | mistyped run | trailing run | wrong run | fault run => exact kept run

end

namespace Machine

variable {H : Type} [Console H] {machine : Machine H}

/-- What a machine does with an answer to its edit line. -/
def answered (answer : Answer) (machine : Machine H) : Entered × Machine H :=
  match answer with
  | .value value => (.value value, machine)
  | .marked column => (.unusable, { machine with edit := machine.edit.markColumn column })
  | .failed fault => (.failed fault, machine)

/-- The value of an expression that fills its line and is a number, or where it goes wrong. -/
def filling (looked : Scanner) (value : Value) : Except (Fault × Nat) Int :=
  if looked.current = Code.newline then
    match value with
    | .number value => .ok value
    | .text _ => .error (.syntaxError, looked.position)
  else
    .error (.syntaxError, looked.position)

theorem entryNumber_apply (environment : Environment) (desk : Desk H) :
    entryNumber environment desk =
      match Expression.evaluate environment .execute desk with
      | (.error fault, reached) => (.ok (.error (fault, reached.scanner.position)), reached)
      | (.ok value, reached) =>
          (.ok (filling reached.scanner.look value),
            { reached with scanner := reached.scanner.look }) := by
  unfold entryNumber
  simp only [Attempt.bind_apply]
  rcases Expression.evaluate environment .execute desk with ⟨fault | value, reached⟩
  · rfl
  · simp only [Desk.expectEnd_apply, filling]
    by_cases ends : reached.scanner.look.current = Code.newline
    · simp only [if_pos ends]
      cases value <;> rfl
    · simp only [if_neg ends]

theorem atDesk_entryNumber {result : Except Fault Value} {desk : Desk H}
    (run : evaluated machine.environment machine.edit.text machine.console = (result, desk)) :
    atDesk (.ofBytes machine.edit.refresh.bytes 0) entryNumber
        { machine with edit := machine.edit.refresh } =
      (.ok (match result with
        | .error fault => .error (fault, desk.scanner.position)
        | .ok value => filling desk.scanner.look value),
        { machine with edit := machine.edit.refresh, console := desk.console }) := by
  have same : Expression.evaluate
      (environment { machine with edit := machine.edit.refresh }) .execute
      ⟨.ofBytes machine.edit.refresh.bytes 0, .empty machine.config.calculatorDepth,
        machine.console⟩ = (result, desk) := run
  simp only [atDesk, entryNumber_apply, same]
  cases result <;> rfl

/-- The text of the edit line is answered, whatever it is. -/
theorem exists_answers (isText : Bool) (machine : Machine H) :
    ∃ answer console,
      Answers machine.environment machine.edit.text machine.console isText answer console ∧
      machine.takeEntry isText =
        answered answer { machine with edit := machine.edit.refresh, console } := by
  cases isText with
  | true =>
      unfold takeEntry
      rw [if_pos rfl]
      have same : machine.edit.refresh.text = machine.edit.text := rfl
      cases found : machine.edit.text.findIdx? (· == Code.quote) with
      | none =>
          refine ⟨.value (.text machine.edit.text), machine.console, .text fun member => ?_, ?_⟩
          · exact absurd (List.findIdx?_eq_none_iff.mp found _ member) (by simp)
          · rw [same, found]
            rfl
      | some column =>
          obtain ⟨absent, cut⟩ := Bytes.split_at_mark found
          have length : (machine.edit.text.take column).length = column := by
            have lengths := congrArg List.length cut
            simp only [List.length_append, List.length_take, List.length_cons] at lengths ⊢
            omega
          refine ⟨.marked (machine.edit.text.take column).length, machine.console,
            .quoted cut absent, ?_⟩
          rw [same, found, length]
          rfl
  | false =>
      unfold takeEntry
      rw [if_neg Bool.false_ne_true]
      rcases run : evaluated machine.environment machine.edit.text machine.console with
        ⟨fault | value, desk⟩
      · rw [atDesk_entryNumber run]
        by_cases wrong : fault = .syntaxError
        · subst wrong
          exact ⟨_, _, .wrong run, rfl⟩
        · refine ⟨_, _, .fault run wrong, ?_⟩
          cases fault <;> first | exact absurd rfl wrong | rfl
      · rw [atDesk_entryNumber run]
        by_cases ends : desk.scanner.look.current = Code.newline
        · cases value with
          | number value => exact ⟨_, _, .number run ends, by simp only [filling, if_pos ends]; rfl⟩
          | text codes => exact ⟨_, _, .mistyped run ends, by simp only [filling, if_pos ends]; rfl⟩
        · exact ⟨_, _, .trailing run ends, by simp only [filling, if_neg ends]; rfl⟩

end Machine
end HomeBasic
