import HomeBasic.Machine.Editor
import HomeBasic.Proofs.Line.Checking
import HomeBasic.Proofs.Program.Refinement
import HomeBasic.Proofs.Statement.Typed
import HomeBasic.Proofs.Variables.Sound

/-!
# Syntax errors at run time

A line that the editor takes is well formed, so what is left for its execution to be at
fault with the syntax is a value: a `VAL` of a text that is no number, or a `READ` of an
item of the other type. There is one more way. The scanner reads names of up to 63 codes,
and a variable can have such a name, but an array cannot, and a `DIM` of one is only
refused when it is carried out.

Main statement: a line that checks fails with a syntax error in these ways and in no
other, and the entry to an `INPUT` never does (`carryOut_syntaxError_iff`).
-/

namespace HomeBasic

open Attempt (Confined confined_pure confined_throw confined_guard confined_ofExcept
  confined_get confined_set confined_modify confined_ofUpdate confined_within)

/-- A step never fails with a syntax error. -/
abbrev Attempt.Clean {σ α : Type} (step : Attempt σ α) : Prop :=
  Confined (· ≠ .syntaxError) step

open Attempt (Clean)

/-! ## Variables -/

namespace Variables

theorem clean_resize (old new : Nat) : Clean (resize old new) := by
  intro store fault failed
  unfold resize at failed
  dsimp only at failed
  split at failed <;> cases failed
  exact Fault.noConfusion

theorem clean_append (name : Name) (contents : Variable) : Clean (append name contents) :=
  confined_get.bind fun _ => (clean_resize _ _).bind fun _ => confined_modify _

theorem clean_replace (position : Nat) (contents : Variable) :
    Clean (replace position contents) := by
  refine confined_get.bind fun store => ?_
  split
  · exact confined_pure _
  · exact (clean_resize _ _).bind fun _ => confined_modify _

theorem clean_assignNumber (name : Name) (value : Int) : Clean (assignNumber name value) := by
  refine confined_get.bind fun store => ?_
  split
  · exact clean_append _ _
  · exact confined_modify _

theorem clean_assignText (name : Name) (codes : List Code) : Clean (assignText name codes) := by
  refine confined_get.bind fun store => ?_
  split
  · exact clean_append _ _
  · exact clean_replace _ _

theorem clean_elementAt (values : List Int) (index : Int) :
    Clean (Attempt.ofExcept (elementAt values index) : Attempt Variables Nat) := by
  refine confined_ofExcept fun fault failed => ?_
  rw [fault_of_elementAt failed]
  exact Fault.noConfusion

theorem clean_assignElement (name : Name) (index value : Int) :
    Clean (assignElement name index value) := by
  refine confined_get.bind fun store => ?_
  split
  · exact (clean_elementAt _ _).bind fun _ => confined_modify _
  · exact confined_throw Fault.noConfusion

theorem clean_startLoop (name : Name) (limit : Int) (resume : Nat) :
    Clean (startLoop name limit resume) := by
  refine confined_get.bind fun store => ?_
  split
  · exact clean_replace _ _
  · exact confined_throw Fault.noConfusion

theorem clean_stepLoop (name : Name) : Clean (stepLoop name) := by
  refine confined_get.bind fun store => ?_
  split
  · refine (confined_ofExcept fun fault failed => ?_).bind fun _ =>
      (confined_modify _).bind fun _ => confined_pure _
    rw [Operator.fault_of_checked failed]
    exact Fault.noConfusion
  · exact confined_throw Fault.noConfusion

theorem clean_placeArray (name : Name) (maxIndex : Int) : Clean (placeArray name maxIndex) := by
  refine confined_get.bind fun store => ?_
  split
  · exact (confined_pure _).bind fun _ => clean_append _ _
  · exact (confined_modify _).bind fun _ => clean_append _ _

/-- Of the names that are read only the longest is refused to an array. -/
theorem declareArray_syntaxError_iff {name : Name} {maxIndex : Int}
    (named : name.length ≤ maxNameLength) (store : Variables) :
    (declareArray name maxIndex store).1 = .error .syntaxError ↔
      name.length = maxNameLength ∧ 0 ≤ maxIndex ∧ maxIndex ≤ maxArrayIndex := by
  rw [declareArray_eq]
  split
  next outside =>
    constructor
    · intro failed
      cases failed
    · rintro ⟨_, lower, upper⟩
      omega
  next inside =>
    split
    next longest =>
      refine ⟨fun _ => ?_, fun _ => rfl⟩
      omega
    next shorter =>
      refine ⟨fun failed => absurd rfl (clean_placeArray name maxIndex store _ failed), ?_⟩
      omega

end Variables

namespace Machine

variable {H : Type}

/-! ## Commands -/

theorem clean_lineNumber (value : Int) :
    Clean (Attempt.ofExcept (lineNumber value) : Attempt (Machine H) Nat) := by
  refine confined_ofExcept fun fault failed => ?_
  unfold lineNumber at failed
  split at failed <;> cases failed
  exact Fault.noConfusion

theorem clean_onVariables {α : Type} {step : Attempt Variables α} (clean : Clean step) :
    Clean (onVariables step : Attempt (Machine H) α) :=
  confined_within clean

/-- A value of the right type can be put in its place, or the place is at fault. -/
theorem clean_assign {target : Target} {value : Value} (typed : target.isText = value.isText) :
    Clean (assign target value : Attempt (Machine H) Unit) := by
  cases target <;> cases value <;> try cases typed
  · exact clean_onVariables (Variables.clean_assignNumber _ _)
  · exact clean_onVariables (Variables.clean_assignElement _ _ _)
  · exact clean_onVariables (Variables.clean_assignText _ _)

theorem clean_poke (address value : Int) :
    Clean (poke address value : Attempt (Machine H) Unit) := by
  refine confined_get.bind fun machine => confined_guard Fault.noConfusion ?_
  exact confined_guard Fault.noConfusion (confined_set _)

theorem clean_startEntry (target : Target) :
    Clean (startEntry target : Attempt (Machine H) Unit) :=
  confined_get.bind fun _ => confined_guard Fault.noConfusion (confined_set _)

/-- A stack of returns that is full is out of memory. -/
theorem clean_push (returns : BoundedStack Nat) (line : Nat) :
    Clean (Attempt.ofExcept (returns.push line) : Attempt (Machine H) (BoundedStack Nat)) := by
  refine confined_ofExcept fun fault failed => ?_
  unfold BoundedStack.push at failed
  split at failed <;> cases failed
  exact Fault.noConfusion

variable [Console H]

theorem clean_transferFailed {α : Type} (fault : SlotFault) :
    Clean (transferFailed fault : Attempt (Machine H) α) := by
  refine (confined_modify _).bind fun _ => confined_throw ?_
  cases fault <;> exact Fault.noConfusion

theorem clean_slotNumber (slot : Int) : Clean (slotNumber slot : Attempt (Machine H) Nat) := by
  refine confined_get.bind fun machine => ?_
  split
  · exact confined_pure _
  · exact confined_throw Fault.noConfusion

theorem clean_save (slot : Int) : Clean (save slot : Attempt (Machine H) Unit) := by
  refine (clean_slotNumber slot).bind fun slot => confined_get.bind fun machine => ?_
  split
  on_goal 1 => refine (clean_transferFailed _).bind fun _ => ?_
  all_goals
    refine (confined_within (confined_ofUpdate _)).bind fun answer => ?_
    split
    · exact confined_pure _
    · exact clean_transferFailed _

theorem clean_fetchBlock (slot : Nat) :
    Clean (fetchBlock slot : Attempt (Machine H) (Except SlotFault (List Code))) := by
  unfold fetchBlock
  split
  · exact confined_get.bind fun _ => confined_pure _
  · exact confined_within (confined_ofUpdate _)

theorem clean_load (slot : Int) : Clean (load slot : Attempt (Machine H) Unit) := by
  refine (clean_slotNumber slot).bind fun slot => (clean_fetchBlock slot).bind fun block => ?_
  refine confined_get.bind fun machine => ?_
  split
  · exact clean_transferFailed _
  · exact confined_set _

/-- A command fails with a syntax error only if it reads an item or makes an array. -/
theorem clean_perform {command : Command} (typed : command.Typed)
    (reads : ∀ target, command ≠ .read target)
    (declares : ∀ name maxIndex, command ≠ .dimension name maxIndex) :
    Clean (perform command : Attempt (Machine H) Unit) := by
  have numbered : ∀ {α : Type} (value : Int) {next : Nat → Attempt (Machine H) α},
      (∀ line, Clean (next line)) → Clean (Attempt.ofExcept (lineNumber value) >>= next) :=
    fun value _ clean => (clean_lineNumber value).bind clean
  cases command
  case list start =>
    refine numbered _ fun start => confined_get.bind fun machine => ?_
    exact confined_within (Printing.confined_listings Fault.noConfusion _)
  case run start => exact numbered _ fun start => confined_modify _
  case save slot => exact clean_save slot
  case load slot => exact clean_load slot
  case assign target value => exact clean_assign typed
  case input target => exact clean_startEntry target
  case goto line => exact numbered _ fun line => confined_modify _
  case gosub line =>
    exact numbered _ fun line => confined_get.bind fun machine =>
      (clean_push _ _).bind fun _ => confined_set _
  case «return» =>
    refine confined_get.bind fun machine => ?_
    split
    · exact confined_set _
    · exact confined_throw Fault.noConfusion
  case loop name start limit =>
    refine (clean_onVariables (Variables.clean_assignNumber _ _)).bind fun _ => ?_
    exact confined_get.bind fun _ => clean_onVariables (Variables.clean_startLoop _ _ _)
  case next name =>
    refine (clean_onVariables (Variables.clean_stepLoop name)).bind fun line => ?_
    split
    · exact confined_modify _
    · exact confined_pure _
  case stop => exact confined_throw Fault.noConfusion
  case dimension name maxIndex => exact absurd rfl (declares name maxIndex)
  case read target => exact absurd rfl (reads target)
  case restore line => exact numbered _ fun line => confined_modify _
  case poke address value => exact clean_poke address value
  case wait duration =>
    change Clean (if duration < 0 then throw .arithmeticOverflow else startPause duration false)
    split
    · exact confined_throw Fault.noConfusion
    · exact confined_modify _
  case beep duration pitch =>
    change Clean (if duration < 0 then throw .arithmeticOverflow
      else tellConsole (Console.startTone pitch) >>= fun _ => startPause duration true)
    split
    · exact confined_throw Fault.noConfusion
    · exact (confined_modify _).bind fun _ => confined_modify _
  all_goals exact confined_modify _

/-! ## Entries -/

/-- What is wrong with an entry is told, and not left to fail with. -/
theorem entryNumber_ok (environment : Environment) (desk : Desk H) :
    ∃ answer reached, entryNumber environment desk = (.ok answer, reached) := by
  unfold entryNumber
  split
  · exact ⟨_, _, rfl⟩
  · exact ⟨_, _, rfl⟩

/-- The ways in which an entry is taken, or not. -/
inductive Taken (isText : Bool) : Entered → Prop
  | value {value : Value} : value.isText = isText → Taken isText (.value value)
  | unusable : Taken isText .unusable
  | failed {fault : Fault} : fault ≠ .syntaxError → Taken isText (.failed fault)

/-- An entry is of the type that is asked for, and one with a syntax error is not taken. -/
theorem taken_takeEntry (isText : Bool) (machine : Machine H) :
    Taken isText (takeEntry isText machine).1 := by
  unfold takeEntry
  cases isText with
  | true =>
      simp only [if_true]
      split
      · exact .unusable
      · exact .value rfl
  | false =>
      simp only [Bool.false_eq_true, if_false]
      obtain ⟨answer, reached, run⟩ := entryNumber_ok machine.environment
        (⟨.ofBytes machine.edit.refresh.bytes 0, .empty machine.config.calculatorDepth,
          machine.console⟩ : Desk H)
      have answered : (atDesk (.ofBytes machine.edit.refresh.bytes 0) entryNumber
          { machine with edit := machine.edit.refresh }).1 = .ok answer := by
        rw [atDesk]
        exact congrArg Prod.fst run
      generalize atDesk (.ofBytes machine.edit.refresh.bytes 0) entryNumber
        { machine with edit := machine.edit.refresh } = outcome at answered ⊢
      obtain ⟨_, after⟩ := outcome
      cases answered
      rcases answer with ⟨fault, position⟩ | value
      · cases fault
        case syntaxError => exact .unusable
        all_goals exact .failed Fault.noConfusion
      · exact .value rfl

/-! ## Lines -/

/-- Reads the line at a scanner, where `VAL` fails with a fault. -/
def readLine (valFault : Fault) (scanner : Scanner) : Attempt (Machine H) (Option Command) :=
  atDesk scanner fun environment =>
    Statement.line (Expression.failing environment valFault) .execute

theorem readLine_fst (valFault : Fault) (scanner : Scanner) (machine : Machine H) :
    (readLine valFault scanner machine).1 =
      (Statement.line (Expression.failing machine.environment valFault) .execute
        ⟨scanner, .empty machine.config.calculatorDepth, machine.console⟩).1 := by
  rw [readLine, atDesk]
  rfl

theorem carryOut_apply (scanner : Scanner) (machine : Machine H) :
    carryOut scanner machine =
      match readLine .syntaxError scanner machine with
      | (.ok (some command), reached) => perform command reached
      | (.ok none, reached) => (.ok (), reached)
      | (.error fault, reached) => (.error fault, reached) := by
  have same : Expression.failing machine.environment .syntaxError = machine.environment := rfl
  have read : readLine .syntaxError scanner machine =
      atDesk scanner (fun environment => Statement.line environment .execute) machine := by
    rw [readLine, atDesk, atDesk, same]
  rw [carryOut, Attempt.bind_apply, ← read]
  rcases readLine .syntaxError scanner machine with ⟨fault | found, reached⟩
  · rfl
  · cases found <;> rfl

/-- The statement of a line is at a scanner: by itself, or where the program has the line. -/
inductive Holding (machine : Machine H) (line : Line) : Scanner → Prop
  | direct : Holding machine line (.ofBytes line.body 0)
  | stored {lines : List Line} : machine.program.Holds lines → line ∈ lines →
      Holding machine line
        (.ofBytes machine.program.bytes ((machine.program.find line.number).1 + 2))

/-- What can be at fault with the syntax of a line that checks. -/
inductive Blamed (machine : Machine H) (scanner : Scanner) : Prop
  /-- A `VAL` of a text that is no number: the line fails with whatever that fails with. -/
  | val : (∀ fault, (readLine fault scanner machine).1 = .error fault) → Blamed machine scanner
  /-- A `READ`. -/
  | read {target : Target} {reached : Machine H} :
      readLine .syntaxError scanner machine = (.ok (some (.read target)), reached) →
      (read target reached).1 = .error .syntaxError → Blamed machine scanner
  /-- A `DIM` of an array with the longest name. -/
  | dimension {name : Name} {maxIndex : Int} {reached : Machine H} :
      readLine .syntaxError scanner machine = (.ok (some (.dimension name maxIndex)), reached) →
      name.length = maxNameLength → 0 ≤ maxIndex → maxIndex ≤ maxArrayIndex →
      Blamed machine scanner

omit [Console H] in
/-- Where the statement of a line is at a scanner, it is all that is left of a line. -/
theorem Holding.line_eq {machine : Machine H} {line : Line} {scanner : Scanner}
    (holding : machine.Holding line scanner) (oneLine : Code.newline ∉ line.body) :
    scanner.line = line.body := by
  cases holding with
  | direct => exact Scanner.line_ofBytes oneLine
  | stored holds member =>
      obtain ⟨after, rest⟩ := holds.drop_find_of_mem member
      exact Scanner.line_eq rest oneLine rfl

/-- A command that is read off a line is typed. -/
theorem typed_of_readLine {scanner : Scanner} {valFault : Fault} {machine reached : Machine H}
    {command : Command} (run : readLine valFault scanner machine = (.ok (some command), reached)) :
    command.Typed := by
  have read := Statement.returns_line (Expression.failing machine.environment valFault) .execute
    (⟨scanner, .empty machine.config.calculatorDepth, machine.console⟩ : Desk H) trivial
  have result := congrArg Prod.fst run
  rw [readLine_fst] at result
  generalize Statement.line (Expression.failing machine.environment valFault) .execute
    (⟨scanner, .empty machine.config.calculatorDepth, machine.console⟩ : Desk H) = outcome
    at read result
  rcases outcome with ⟨fault | found, desk⟩
  · cases result
  · cases result
    exact read.1 command rfl

/-- Reading a line that checks is to blame only if it fails with whatever fault `VAL` fails with. -/
theorem blamed_of_readLine {machine reached : Machine H} {scanner : Scanner}
    {statement : List Code} (checks : Statement.Checks machine.config statement)
    (oneLine : Code.newline ∉ statement) (line : scanner.line = statement)
    (run : readLine .syntaxError scanner machine = (.error .syntaxError, reached)) :
    machine.Blamed scanner := by
  obtain ⟨found, checked⟩ := checks
  have same : Statement.SameLine
      (⟨.ofBytes statement 0, .empty machine.config.calculatorDepth, {}⟩ : Desk NoConsole)
      (⟨scanner, .empty machine.config.calculatorDepth, machine.console⟩ : Desk H) :=
    ⟨line.trans (Scanner.line_ofBytes oneLine).symm, rfl⟩
  have ill := congrArg Prod.fst run
  rw [readLine_fst] at ill
  refine .val fun valFault => ?_
  rw [readLine_fst]
  have config : machine.environment.config = (Environment.blank machine.config).config := rfl
  exact Statement.fails_of_val_line same config checked ill valFault

/-- Of the commands, only a `READ` and a `DIM` of a long name fail with a syntax error. -/
theorem blamed_of_perform {machine reached : Machine H} {scanner : Scanner} {command : Command}
    (run : readLine .syntaxError scanner machine = (.ok (some command), reached))
    (failed : (perform command reached).1 = .error .syntaxError) : machine.Blamed scanner := by
  have typed := typed_of_readLine run
  by_cases reads : ∃ target, command = .read target
  · obtain ⟨target, rfl⟩ := reads
    exact .read run failed
  by_cases declares : ∃ name maxIndex, command = .dimension name maxIndex
  · obtain ⟨name, maxIndex, rfl⟩ := declares
    obtain ⟨longest, lower, upper⟩ :=
      (Variables.declareArray_syntaxError_iff typed reached.variableStore).mp failed
    exact .dimension run longest lower upper
  · have clean : Clean (perform command : Attempt (Machine H) Unit) :=
      clean_perform typed (fun target same => reads ⟨target, same⟩)
        fun name maxIndex same => declares ⟨name, maxIndex, same⟩
    exact absurd rfl (clean reached _ failed)

/-- A line that checks fails with a syntax error exactly if there is something to blame. -/
theorem syntaxError_iff_of_checks {machine : Machine H} {scanner : Scanner}
    {statement : List Code} (checks : Statement.Checks machine.config statement)
    (oneLine : Code.newline ∉ statement) (line : scanner.line = statement) :
    (carryOut scanner machine).1 = .error .syntaxError ↔ machine.Blamed scanner := by
  rw [carryOut_apply]
  constructor
  · intro failed
    rcases run : readLine .syntaxError scanner machine with ⟨fault | found, reached⟩
    · rw [run] at failed
      cases failed
      exact blamed_of_readLine checks oneLine line run
    · rw [run] at failed
      cases found with
      | none => cases failed
      | some command => exact blamed_of_perform run failed
  · rintro (fails | ⟨run, failed⟩ | ⟨run, longest, lower, upper⟩)
    · have failed := fails .syntaxError
      generalize readLine .syntaxError scanner machine = outcome at failed ⊢
      rcases outcome with ⟨fault | found, reached⟩
      · cases failed
        rfl
      · cases failed
    · rw [run]
      exact failed
    · rw [run]
      exact (Variables.declareArray_syntaxError_iff (typed_of_readLine run) _).mpr
        ⟨longest, lower, upper⟩

/-- An entry to an `INPUT` never fails with a syntax error, nor does its value once it is taken. -/
theorem clean_entry (target : Target) (machine : Machine H) :
    (takeEntry target.isText machine).1 ≠ .failed .syntaxError ∧
      ∀ value, (takeEntry target.isText machine).1 = .value value →
        Clean (assign target value : Attempt (Machine H) Unit) := by
  have taken := taken_takeEntry target.isText machine
  constructor
  · intro failed
    rw [failed] at taken
    cases taken with
    | failed fault => exact fault rfl
  · intro value entered
    rw [entered] at taken
    cases taken with
    | value typed => exact clean_assign typed.symm

/--
A line that the editor takes fails with a syntax error, in whatever state it is carried
out, exactly if a `VAL`, a `READ` or the longest name of an array is to blame, and the
entry to an `INPUT` never does.
-/
theorem carryOut_syntaxError_iff {config : Config} {edit : EditLine} {number : Nat}
    (oneLine : Code.newline ∉ edit.text)
    (accepted : (edit.refresh.check config).result = .ok number)
    {machine : Machine H} (same : machine.config = config) {scanner : Scanner}
    (holding : machine.Holding ⟨number, edit.refresh.statement (edit.refresh.check config)⟩
      scanner) :
    ((carryOut scanner machine).1 = .error .syntaxError ↔ machine.Blamed scanner) ∧
      ∀ (target : Target) (entering : Machine H),
        (takeEntry target.isText entering).1 ≠ .failed .syntaxError ∧
          ∀ value, (takeEntry target.isText entering).1 = .value value →
            ∀ later : Machine H, (assign target value later).1 ≠ .error .syntaxError := by
  obtain rfl := same
  have crunched : edit.refresh.crunched = crunch edit.refresh.text := rfl
  have oneLine : Code.newline ∉ edit.refresh.text := oneLine
  have statement : edit.refresh.statement (edit.refresh.check machine.config) =
      (Line.ofCodes edit.refresh.text).body := EditLine.statement_check crunched oneLine
  obtain ⟨_, checks⟩ := (EditLine.result_check_iff crunched oneLine).mp accepted
  have absent := Line.oneLine_ofCodes oneLine
  constructor
  · rw [statement] at holding
    exact syntaxError_iff_of_checks checks absent (holding.line_eq absent)
  · intro target entering
    obtain ⟨unfailing, typed⟩ := clean_entry target entering
    exact ⟨unfailing, fun value entered later failed => typed value entered later _ failed rfl⟩

/-- A `DIM` of an array with the longest name. -/
def longestArray : EditLine :=
  EditLine.empty.setText
    (Code.encode "DIM " ++ List.replicate maxNameLength Code.letterA ++ Code.encode "(1)")

/-- The line is taken, and it fails with a syntax error. -/
theorem carryOut_syntaxError_iff_longestArray :
    Code.newline ∉ longestArray.text ∧
      (longestArray.refresh.check {}).result = .ok 0 ∧
      (carryOut (.ofBytes (longestArray.refresh.statement (longestArray.refresh.check {})) 0)
        (start {} NoConsole.mk)).1 = .error .syntaxError ∧
      (start {} NoConsole.mk).Blamed
        (.ofBytes (longestArray.refresh.statement (longestArray.refresh.check {})) 0) := by
  have oneLine : Code.newline ∉ longestArray.text := by decide
  have accepted : (longestArray.refresh.check {}).result = .ok 0 := rfl
  have failed : (carryOut
      (.ofBytes (longestArray.refresh.statement (longestArray.refresh.check {})) 0)
      (start {} NoConsole.mk)).1 = .error .syntaxError := rfl
  exact ⟨oneLine, accepted, failed,
    (carryOut_syntaxError_iff oneLine accepted rfl .direct).1.mp failed⟩

end Machine
end HomeBasic
