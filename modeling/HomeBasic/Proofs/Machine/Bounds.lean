import HomeBasic.Proofs.Machine.Checked
import HomeBasic.Proofs.Machine.Whereabouts

/-!
# Bounds of a step

A step with every slice, every element, every difference and every line number after another
checked on the way: the line that is carried out and the command it comes to, the check of the
edit line, entries, and time that passes. On a sound machine whose display has a column at least
(`Ranged`) it does the same as with nothing checked.

Main statement: `Sound.checkedAdvance`.
-/

namespace HomeBasic

open Checked
open Trial (Succeeds)

namespace Machine

variable {H : Type} {config : Config} {holds : H → Prop} {machine : Machine H}

/-! ## With everything checked -/

/-- Changes the edit line as a key says that does not enter it. -/
def checkedEditKey (key : Key) (edit : EditLine) : Option EditLine :=
  match key with
  | .code code => edit.checkedInsert code
  | .delete => edit.checkedBackspace
  | .break => edit.checkedSetText []
  | key => some (editKey key edit)

/-- The number of the line to carry out next, zero at the end of the program. -/
def checkedUpcoming (machine : Machine H) : Option Nat :=
  match machine.jump with
  | some 0 => some 0
  | some target => some (machine.program.firstFrom target)
  | none => machine.checkedNextLineNumber

variable [Console H]

/-- Checks the edit line as it stands and shows it with its cursor and any fault. -/
def checkedRefreshEdit (machine : Machine H) : Option (Machine H) := do
  let edit ← machine.edit.checkedRefresh
  let verdict ← edit.checkedCheck machine.config
  let edit := match verdict.result with
    | .ok _ => edit
    | .error (_, position) => edit.mark position
  return { machine with
    edit
    glyph := verdict.glyph
    console := Console.showEditLine (edit.render verdict.shownGlyph) machine.console }

/-- Ends a direct line or a run. -/
def checkedConclude (inProgram : Bool) (outcome : Except Fault Unit) (machine : Machine H) :
    Option (Machine H) := do
  let (character, line, resumeLine) ← match outcome with
    | .ok () => some ('0', machine.line, if inProgram then 0 else machine.resumeLine)
    | .error .stopped =>
        machine.checkedNextLineNumber.map fun following =>
          (Fault.stopped.reportChar, following, following)
    | .error fault => some (fault.reportChar, machine.line, machine.line)
  let machine := machine.report character line
  let edit ← machine.edit.checkedSetText []
  checkedRefreshEdit { machine with resumeLine, jump := none, phase := .editing, edit }

/-- Goes on after a line that ended well. -/
def checkedLineDone (inProgram : Bool) (machine : Machine H) : Option (Machine H) :=
  if inProgram then
    let (held, console) := Console.breakHeld machine.console
    let machine := { machine with console }
    if held then machine.checkedConclude true (.error .stopped)
    else some { machine with phase := .running }
  else if machine.jump.isSome then
    some { machine with phase := .running }
  else
    machine.checkedConclude false (.ok ())

/-- Goes on after a step: a line that takes its time is not done yet. -/
def checkedProceed (inProgram : Bool) : Except Fault Unit × Machine H → Option (Machine H)
  | (.error fault, machine) => machine.checkedConclude inProgram (.error fault)
  | (.ok (), machine) =>
      match machine.phase with
      | .entering _ | .pausing .. => some machine
      | _ => machine.checkedLineDone inProgram

/-- Carries out the line at a place of some bytes. -/
def checkedCarryOut (bytes : List Code) (position : Nat) : Trial (Machine H) Unit := do
  match ← tryDesk (.ofBytes bytes position)
    fun environment => Statement.checkedLine bytes environment .execute with
  | some command => checkedPerform command
  | none => return

/-- Carries out the next line of the program, if there is one. -/
def checkedAdvanceProgram (machine : Machine H) : Option (Machine H) := do
  let number ← machine.checkedUpcoming
  let machine := { machine with jump := none }
  if number = 0 then
    machine.checkedConclude true (.ok ())
  else
    let start := (machine.program.find number).1
    let outcome ←
      checkedCarryOut machine.program.bytes (start + 2) { machine with line := number }
    checkedProceed true outcome

/-- Evaluates the expression that fills the edit line; with a fault comes the place it was found. -/
def checkedEntryNumber (bytes : List Code) (environment : Environment) :
    Trial (Desk H) (Except (Fault × Nat) Int) :=
  let entry : Trial (Desk H) Int := do
    let value ← Expression.checkedEvaluate bytes environment .execute
    Trial.ofAttempt Desk.expectEnd
    match value with
    | .number value => return value
    | .text _ => throw .syntaxError
  fun desk => (entry desk).map fun
    | (.ok value, desk) => (.ok (.ok value), desk)
    | (.error fault, desk) => (.ok (.error (fault, desk.scanner.position)), desk)

/-- Takes the edit line as an entry, or marks where it cannot be one. -/
def checkedTakeEntry (isText : Bool) (machine : Machine H) : Option (Entered × Machine H) := do
  let edit ← machine.edit.checkedRefresh
  let machine := { machine with edit }
  if isText then
    match edit.text.findIdx? (· == Code.quote) with
    | some column => return (.unusable, { machine with edit := edit.markColumn column })
    | none => return (.value (.text edit.text), machine)
  else
    match ← tryDesk (.ofBytes edit.bytes 0) (checkedEntryNumber edit.bytes) machine with
    | (.ok (.ok value), machine) => return (.value (.number value), machine)
    | (.ok (.error (.syntaxError, position)), machine) =>
        return (.unusable, { machine with edit := machine.edit.mark position })
    | (.ok (.error (fault, _)), machine) => return (.failed fault, machine)
    | (.error fault, machine) => return (.failed fault, machine)

/-- Ends an entry: the edit line is left empty, whatever comes of it. -/
def checkedEndEntry (machine : Machine H) : Option (Machine H) := do
  let edit ← machine.edit.checkedSetText []
  let machine := { machine with edit, phase := .running }
  return machine.showEdit (machine.glyph.getD .letter)

/-- Goes on with what the enter key came to. -/
def checkedEntered (target : Target) : Entered × Machine H → Option (Machine H)
  | (.value value, machine) => do
      checkedProceed true (← checkedAssign target value (← machine.checkedEndEntry))
  | (.unusable, machine) => some machine
  | (.failed fault, machine) => do (← machine.checkedEndEntry).checkedConclude true (.error fault)

/-- Takes a key for an entry. -/
def checkedAdvanceEntry (target : Target) (machine : Machine H) : Option (Machine H) :=
  let machine := machine.showEdit .letter
  let (key, console) := Console.nextKey machine.console
  let machine := { machine with console }
  match key with
  | none | some .break => do (← machine.checkedEndEntry).checkedConclude true (.error .stopped)
  | some .enter => do checkedEntered target (← machine.checkedTakeEntry target.isText)
  | some .up | some .down => some machine
  | some key => do return { machine with edit := ← checkedEditKey key machine.edit }

/-- Lets some time pass up to a deadline, with a look at the break key before. -/
def checkedAdvancePause (deadline : Nat) (sounding inProgram : Bool) (machine : Machine H) :
    Option (Machine H) :=
  let now := Console.clock machine.console
  if deadline ≤ now then
    (machine.endPause sounding).checkedLineDone inProgram
  else
    let (held, console) := Console.breakHeld machine.console
    let machine := { machine with console }
    if held then
      (machine.endPause sounding).checkedConclude inProgram (.error .stopped)
    else do
      let slice := min (← difference? deadline now) machine.config.breakInterval
      return { machine with console := Console.delay slice machine.console }

/-- A single step; a machine that is editing stays as it is. -/
def checkedAdvance (machine : Machine H) : Option (Machine H) :=
  match machine.phase with
  | .editing => some machine
  | .direct statement => do checkedProceed false (← checkedCarryOut statement 0 machine)
  | .running => machine.checkedAdvanceProgram
  | .entering target => machine.checkedAdvanceEntry target
  | .pausing deadline sounding inProgram => machine.checkedAdvancePause deadline sounding inProgram

/-! ## The edit line -/

omit [Console H] in
theorem checkedEditKey_eq {edit : EditLine} (placed : edit.Placed) (key : Key) :
    checkedEditKey key edit = some (editKey key edit) := by
  cases key with
  | code code => exact placed.checkedInsert code
  | delete => exact placed.checkedBackspace
  | «break» => exact edit.checkedSetText_eq []
  | left | right | up | down | enter => rfl

omit [Console H] in
theorem checkedUpcoming_eq (numbered : machine.line ≤ Line.maxNumber) :
    machine.checkedUpcoming = some machine.upcoming := by
  unfold checkedUpcoming upcoming
  rcases machine.jump with _ | _ | target
  · exact checkedNextLineNumber_eq numbered
  · rfl
  · rfl

theorem checkedRefreshEdit_eq (wide : 1 ≤ machine.config.width) :
    machine.checkedRefreshEdit = some machine.refreshEdit := by
  rw [checkedRefreshEdit, EditLine.checkedRefresh_eq]
  dsimp only [Option.bind_eq_bind, Option.bind_some]
  rw [EditLine.checkedCheck_eq wide]
  rfl

/-! ## The end of a line -/

omit [Console H] in
/-- The display has a column at least, and the line is one that a program may have, or direct. -/
structure Ranged (machine : Machine H) : Prop where
  wide : 1 ≤ machine.config.width
  line : machine.line ≤ Line.maxNumber

theorem checkedConclude_eq (ranged : machine.Ranged) (inProgram : Bool)
    (outcome : Except Fault Unit) :
    machine.checkedConclude inProgram outcome = some (machine.conclude inProgram outcome) := by
  have shown (ended : Char × Nat × Nat) :
      (some ended).bind (fun (character, line, resumeLine) =>
        (machine.edit.checkedSetText []).bind fun edit =>
          checkedRefreshEdit { machine.report character line with
            resumeLine, jump := none, phase := .editing, edit }) =
      some (match ended with
        | (character, line, resumeLine) =>
            refreshEdit { machine.report character line with
              resumeLine, jump := none, phase := .editing, edit := machine.edit.clear }) := by
    obtain ⟨character, line, resumeLine⟩ := ended
    rw [EditLine.checkedSetText_eq]
    dsimp only [Option.bind_some]
    refine checkedRefreshEdit_eq ?_
    exact ranged.wide
  unfold checkedConclude conclude
  rcases outcome with fault | _
  · cases fault with
    | stopped =>
        rw [checkedNextLineNumber_eq ranged.line]
        exact shown (Fault.stopped.reportChar, machine.nextLineNumber, machine.nextLineNumber)
    | _ => exact shown (_, machine.line, machine.line)
  · exact shown ('0', machine.line, _)

theorem checkedLineDone_eq (ranged : machine.Ranged) (inProgram : Bool) :
    machine.checkedLineDone inProgram = some (machine.lineDone inProgram) := by
  unfold checkedLineDone lineDone
  dsimp only
  split
  · split
    · refine checkedConclude_eq ?_ true _
      exact ⟨ranged.wide, ranged.line⟩
    · rfl
  · split
    · rfl
    · exact checkedConclude_eq ranged false _

theorem checkedProceed_eq {outcome : Except Fault Unit × Machine H} (ranged : outcome.2.Ranged)
    (inProgram : Bool) : checkedProceed inProgram outcome = some (proceed inProgram outcome) := by
  rcases outcome with ⟨fault | _, changed⟩
  · exact checkedConclude_eq ranged inProgram _
  · have done : changed.checkedLineDone inProgram = some (changed.lineDone inProgram) :=
      checkedLineDone_eq ranged inProgram
    unfold checkedProceed proceed
    dsimp only
    cases changed.phase with
    | entering | pausing => rfl
    | editing | direct | running => exact done

theorem checkedEndEntry_eq : machine.checkedEndEntry = some machine.endEntry := by
  rw [checkedEndEntry, EditLine.checkedSetText_eq]
  rfl

/-! ## Lines -/

/-- A number is entered within the bytes of the line. -/
theorem succeeds_entryNumber (bytes : List Code) (environment : Environment) {desk : Desk H}
    (aligned : desk.Over bytes) :
    Succeeds (checkedEntryNumber bytes environment) (entryNumber environment) desk := by
  have bounded : Desk.Bounded bytes
      (do
        let value ← Expression.checkedEvaluate bytes environment .execute
        Trial.ofAttempt Desk.expectEnd
        match value with
        | .number value => return value
        | .text _ => throw .syntaxError : Trial (Desk H) Int)
      (do
        let value ← Expression.evaluate environment .execute
        Desk.expectEnd
        match value with
        | .number value => return value
        | .text _ => throw .syntaxError) := by
    refine Expression.bounded_evaluate.bind fun value => Desk.bounded_expectEnd.bind fun _ => ?_
    cases value with
    | number value => exact Desk.bounded_pure value
    | text codes => exact Desk.bounded_throw _
  have entered : _ = some _ := (bounded desk aligned).succeeds
  unfold Succeeds checkedEntryNumber entryNumber
  split
  next run => exact congrArg (Option.map _) (entered.trans (congrArg some run))
  next run => exact congrArg (Option.map _) (entered.trans (congrArg some run))

/-- What is taken for an entry is taken within the bytes of the line. -/
theorem checkedTakeEntry_eq (isText : Bool) :
    machine.checkedTakeEntry isText = some (machine.takeEntry isText) := by
  have entered (machine : Machine H) (bytes : List Code) :
      tryDesk (.ofBytes bytes 0) (checkedEntryNumber bytes) machine =
        some (atDesk (.ofBytes bytes 0) entryNumber machine) :=
    succeeds_tryDesk (succeeds_entryNumber bytes _ (Scanner.over_ofBytes bytes 0))
  rw [checkedTakeEntry, EditLine.checkedRefresh_eq, takeEntry]
  dsimp only [Option.bind_eq_bind, Option.bind_some]
  cases isText with
  | true =>
      rw [if_pos rfl, if_pos rfl]
      cases machine.edit.refresh.text.findIdx? (· == Code.quote) <;> rfl
  | false =>
      rw [if_neg (by decide), if_neg (by decide), entered, Option.bind_some]
      generalize (atDesk (.ofBytes machine.edit.refresh.bytes 0) entryNumber :
        Attempt (Machine H) _) _ = outcome
      rcases outcome with ⟨fault | ⟨fault, position⟩ | value, changed⟩
      · rfl
      · cases fault <;> rfl
      · rfl

omit [Console H] in
theorem Ranged.sameCourse {changed : Machine H} (ranged : machine.Ranged)
    (same : SameCourse machine changed) : changed.Ranged where
  wide := same.config ▸ ranged.wide
  line := same.line ▸ ranged.line

theorem checkedConclude_endEntry (ranged : machine.Ranged) (outcome : Except Fault Unit) :
    (machine.checkedEndEntry.bind fun ended => ended.checkedConclude true outcome) =
      some (machine.endEntry.conclude true outcome) := by
  rw [checkedEndEntry_eq]
  refine checkedConclude_eq ?_ true outcome
  exact ⟨ranged.wide, ranged.line⟩

theorem checkedEntered_eq {outcome : Entered × Machine H} (ranged : outcome.2.Ranged)
    (counted : outcome.2.variableStore.Counted) (target : Target) :
    checkedEntered target outcome = some
      (match outcome.1, outcome.2 with
      | .value value, machine => proceed true (assign target value machine.endEntry)
      | .unusable, machine => machine
      | .failed fault, machine => machine.endEntry.conclude true (.error fault)) := by
  rcases outcome with ⟨value | _ | fault, taken⟩
  · have counted : taken.endEntry.variableStore.Counted := counted
    have assigned : checkedAssign target value taken.endEntry =
        some (assign target value taken.endEntry) := succeeds_assign counted target value
    have ended : taken.endEntry.Ranged := ⟨ranged.wide, ranged.line⟩
    rw [checkedEntered, checkedEndEntry_eq, Option.bind_eq_bind, Option.bind_some, assigned]
    refine checkedProceed_eq (ended.sameCourse ?_) true
    exact SameCourse.frame.related (SameCourse.frame.keeps_assign target value) _
  · rfl
  · exact checkedConclude_endEntry ranged _

theorem checkedAdvancePause_eq (ranged : machine.Ranged) (deadline : Nat)
    (sounding inProgram : Bool) :
    machine.checkedAdvancePause deadline sounding inProgram =
      some (machine.advancePause deadline sounding inProgram) := by
  have ended (console : H) : (endPause sounding { machine with console }).Ranged := by
    unfold endPause
    split <;> exact ⟨ranged.wide, ranged.line⟩
  unfold checkedAdvancePause advancePause
  dsimp only
  split
  · exact checkedLineDone_eq (ended machine.console) inProgram
  next early =>
    split
    · exact checkedConclude_eq (ended _) inProgram _
    · rw [difference?_eq (Nat.le_of_not_le early)]
      rfl

section
variable (upheld : Console.Upheld config.word (fun _ => True) holds)
include upheld

theorem upkeeps_carryOut (room : 1 ≤ config.variablesSize) (scanner : Scanner) :
    Upkeeps config holds (carryOut scanner : Attempt (Machine H) Unit) fun _ => True := by
  refine (upkeeps_readLine upheld scanner).bind fun found commandSound => ?_
  cases found with
  | none => exact Attempt.sustains_pure trivial
  | some command => exact upkeeps_perform upheld room (commandSound command rfl) fun _ _ => trivial

namespace Sound

variable (sound : machine.Sound config holds)
include sound

omit upheld [Console H] in
theorem ranged (wide : 1 ≤ config.width) (line : machine.line ≤ Line.maxNumber) :
    machine.Ranged :=
  ⟨sound.config_eq ▸ wide, line⟩

/-- A line is carried out within bounds, wherever it stands. -/
theorem succeeds_carryOut (ranged : machine.Ranged) (bytes : List Code) (position : Nat) :
    Succeeds (checkedCarryOut bytes position) (carryOut (.ofBytes bytes position)) machine := by
  have read : Succeeds (tryDesk (.ofBytes bytes position)
        fun environment => Statement.checkedLine bytes environment .execute)
      (atDesk (.ofBytes bytes position) fun environment => Statement.line environment .execute)
      machine := by
    have aligned : (machine.desk (.ofBytes bytes position)).Over bytes :=
      Scanner.over_ofBytes bytes position
    exact succeeds_tryDesk (Statement.bounded_line ranged.wide _ aligned).succeeds
  refine read.bind fun found reached run => ?_
  have upkept := upkeeps_readLine upheld (.ofBytes bytes position) machine sound
  rw [run] at upkept
  have same : machine.line = reached.line := congrArg (fun outcome => outcome.2.line) run
  cases found with
  | none => rfl
  | some command =>
      exact upkept.2.succeeds_perform upheld (same ▸ ranged.line) (upkept.1 command rfl)

/-- What comes of a line that is carried out is gone on with within bounds. -/
theorem checkedProceed_carryOut (room : 1 ≤ config.variablesSize) (ranged : machine.Ranged)
    (inProgram : Bool) (bytes : List Code) (position : Nat) :
    ((checkedCarryOut bytes position machine).bind fun outcome =>
        checkedProceed inProgram outcome) =
      some (proceed inProgram (carryOut (.ofBytes bytes position) machine)) := by
  have carried : checkedCarryOut bytes position machine =
      some (carryOut (.ofBytes bytes position) machine) :=
    sound.succeeds_carryOut upheld ranged bytes position
  rw [carried]
  refine checkedProceed_eq ?_ inProgram
  have reached := (upkeeps_carryOut upheld room (.ofBytes bytes position)).kept sound
  refine reached.ranged (sound.config_eq ▸ ranged.wide) ?_
  have line := line_carryOut ⟨inProgram, .ofBytes bytes position, machine⟩
  rw [line]
  exact ranged.line

theorem checkedAdvanceProgram (room : 1 ≤ config.variablesSize) (ranged : machine.Ranged) :
    machine.checkedAdvanceProgram = some machine.advanceProgram := by
  obtain ⟨lines, held⟩ := sound.program.holds
  rw [Machine.checkedAdvanceProgram, checkedUpcoming_eq ranged.line, advanceProgram]
  dsimp only [Option.bind_eq_bind, Option.bind_some]
  split
  · refine checkedConclude_eq ?_ true _
    exact ⟨ranged.wide, ranged.line⟩
  · refine checkedProceed_carryOut upheld ?_ room ?_ true _ _
    · exact { sound with }
    · exact ⟨ranged.wide, upcoming_le held⟩

theorem checkedAdvanceEntry (ranged : machine.Ranged) (placed : machine.edit.Placed)
    (target : Target) :
    machine.checkedAdvanceEntry target = some (machine.advanceEntry target) := by
  have shown := sound.showEdit upheld .letter
  have keyed : Sound config holds { machine.showEdit .letter with
      console := (Console.nextKey (machine.showEdit .letter).console).2 } :=
    { shown with console := upheld.nextKey _ shown.console }
  unfold Machine.checkedAdvanceEntry Machine.advanceEntry
  dsimp only
  generalize Console.nextKey (machine.showEdit .letter).console = pressed at keyed ⊢
  obtain ⟨key, console⟩ := pressed
  have ranged : Ranged { machine.showEdit .letter with console } := ⟨ranged.wide, ranged.line⟩
  rcases key with _ | key
  · exact checkedConclude_endEntry ranged _
  · cases key with
    | «break» => exact checkedConclude_endEntry ranged _
    | up | down => rfl
    | enter =>
        have taken := keyed.takeEntry upheld target.isText
        have entered := checkedEntered_eq
          (ranged.sameCourse (SameCourse.frame.takeEntry _ target.isText))
          taken.1.variableStore.counted target
        dsimp only at entered ⊢
        rw [checkedTakeEntry_eq, Option.bind_eq_bind, Option.bind_some, entered]
        generalize (Machine.takeEntry target.isText _ : Entered × Machine H) = outcome
        rcases outcome with ⟨value | _ | fault, changed⟩ <;> rfl
    | code | delete | left | right =>
        dsimp only
        rw [checkedEditKey_eq (show (machine.showEdit .letter).edit.Placed from placed)]
        rfl

/-- A step stays within bounds, whatever the machine is doing. -/
theorem checkedAdvance (room : 1 ≤ config.variablesSize) (ranged : machine.Ranged)
    (placed : machine.edit.Placed) : machine.checkedAdvance = some machine.advance := by
  unfold Machine.checkedAdvance Machine.advance
  cases machine.phase with
  | editing => rfl
  | direct statement => exact sound.checkedProceed_carryOut upheld room ranged false statement 0
  | running => exact sound.checkedAdvanceProgram upheld room ranged
  | entering target => exact sound.checkedAdvanceEntry upheld ranged placed target
  | pausing deadline sounding inProgram =>
      exact checkedAdvancePause_eq ranged deadline sounding inProgram

end Sound
end

end Machine
end HomeBasic
