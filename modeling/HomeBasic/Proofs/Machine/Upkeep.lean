import HomeBasic.Proofs.Machine.Sound
import HomeBasic.Proofs.Machine.Submitting

/-!
# Machines stay sound

What a machine does between its commands spoils nothing either: the report at the end
of a line, the keys of an entry, time that passes, and the line editor.

Main statements: a machine starts sound (`sound_start`), and it stays sound when it takes
a key (`Sound.press`) or a step (`Sound.advance`), unless the step saves to a slot that is
out of bounds.
-/

namespace HomeBasic

open Attempt (Sustains)

/-- A key that types a display code types no end of a line. -/
theorem EditLine.oneLine_editKey {key : Key} (displayed : key.Displayed) {edit : EditLine}
    (oneLine : Code.newline ∉ edit.text) : Code.newline ∉ (Machine.editKey key edit).text := by
  cases key with
  | code code =>
      refine edit.oneLine_insert oneLine fun same => ?_
      have small := displayed code rfl
      rw [same] at small
      exact absurd small (by decide)
  | delete => exact edit.oneLine_backspace oneLine
  | right => exact edit.oneLine_right oneLine
  | «break» => exact List.not_mem_nil
  | left | up | down | enter => exact oneLine

namespace EditLine

theorem sustains_readLineNumber : Sustains (fun _ => True)
    (readLineNumber : Attempt (Desk NoConsole) Nat) fun number =>
      number = 0 ∨ 0 < number ∧ number ≤ Line.maxNumber := by
  have scanned : ∀ step : Attempt (Desk NoConsole) Unit,
      Sustains (fun _ => True) step fun _ => True := by
    intro step desk _
    rcases step desk with ⟨fault | value, changed⟩
    · trivial
    · exact ⟨trivial, trivial⟩
  refine Attempt.Sustains.bind (fun desk _ => ⟨trivial, trivial⟩) fun (code : Code) (_ : True) => ?_
  split
  · exact Attempt.sustains_pure (.inl rfl)
  · refine Attempt.sustains_get.bind fun desk _ => (scanned _).bind fun _ _ => ?_
    dsimp only
    split
    next => exact Attempt.sustains_throw _
    next inside =>
      simp only [not_or, not_lt] at inside
      exact Attempt.sustains_pure (.inr ⟨Nat.pos_of_ne_zero inside.2.1, inside.2.2⟩)

/-- A line number that is read is one that a line may have, or zero. -/
theorem numbered_check {config : Config} {edit : EditLine} {number : Nat}
    (checked : (edit.check config).result = .ok number) :
    number = 0 ∨ 0 < number ∧ number ≤ Line.maxNumber := by
  unfold check at checked
  dsimp only at checked
  split at checked
  next => cases checked
  next read desk run =>
    have numbered := sustains_readLineNumber
      ⟨.ofEditLine edit, .empty config.calculatorDepth, {}⟩ trivial
    rw [run] at numbered
    split at checked
    next =>
      cases checked
      exact numbered.1
    next => cases checked

end EditLine

namespace Machine

variable {H : Type} [Console H] {config : Config} {savable : Nat → Prop} {holds : H → Prop}
  {machine : Machine H}

/-! ## The end of a line -/

section
variable (upheld : Console.Upheld config.word savable holds)
include upheld

theorem Sound.refreshEdit (sound : machine.Sound config holds) :
    machine.refreshEdit.Sound config holds := by
  refine { sound with oneLine := ?_, console := upheld.showEditLine _ _ sound.console }
  unfold Machine.refreshEdit
  dsimp only
  split <;> exact sound.oneLine

theorem Sound.report (sound : machine.Sound config holds) (character : Char) (line : Nat) :
    (machine.report character line).Sound config holds :=
  { sound with console := upheld.showReport _ _ sound.console }

theorem Sound.conclude (sound : machine.Sound config holds) (inProgram : Bool)
    (outcome : Except Fault Unit) : (machine.conclude inProgram outcome).Sound config holds := by
  unfold Machine.conclude
  dsimp only
  split
  all_goals
    apply Sound.refreshEdit upheld
    exact { sound.report upheld _ _ with oneLine := List.not_mem_nil, entry := nofun }

theorem Sound.lineDone (sound : machine.Sound config holds) (inProgram : Bool) :
    (machine.lineDone inProgram).Sound config holds := by
  have looked : Sound config holds
      { machine with console := (Console.breakHeld machine.console).2 } :=
    { sound with console := upheld.breakHeld _ sound.console }
  unfold Machine.lineDone
  dsimp only
  split
  · split
    · exact looked.conclude upheld true _
    · exact { looked with entry := nofun }
  · split
    · exact { sound with entry := nofun }
    · exact sound.conclude upheld false _

/-- What comes of a step that left a machine sound is sound. -/
theorem sound_proceed {outcome : Except Fault Unit × Machine H}
    (reached : Attempt.Meets (fun _ changed => True ∧ changed.Sound config holds)
      (fun _ changed => changed.Sound config holds) outcome)
    (inProgram : Bool) : (proceed inProgram outcome).Sound config holds := by
  rcases outcome with ⟨fault | _, changed⟩
  · exact Sound.conclude upheld reached inProgram _
  · unfold proceed
    dsimp only
    split
    · exact reached.2
    · exact reached.2
    · exact reached.2.lineDone upheld inProgram

/-! ## Entries -/

omit upheld [Console H] in
theorem Sound.withEdit (sound : machine.Sound config holds) {edit : EditLine}
    (oneLine : Code.newline ∉ edit.text) : Sound config holds { machine with edit } :=
  { sound with oneLine }

theorem Sound.showEdit (sound : machine.Sound config holds) (glyph : Glyph) :
    (machine.showEdit glyph).Sound config holds :=
  { sound with console := upheld.showEditLine _ _ sound.console }

theorem Sound.endEntry (sound : machine.Sound config holds) :
    machine.endEntry.Sound config holds := by
  refine Sound.showEdit upheld ?_ _
  exact { sound with oneLine := List.not_mem_nil, entry := nofun }

/-- A number that is entered is one that a variable can hold. -/
theorem sustains_entryNumber {environment : Environment} (same : environment.config = config)
    (sound : environment.variableStore.Sound config.word config.variablesSize) :
    Sustains (Desk.Steady config.word holds) (entryNumber environment : Attempt (Desk H) _)
      fun entered => ∀ value, entered = .ok value → config.word.Fits value := by
  have entry : Sustains (Desk.Steady config.word holds)
      (do
        let value ← Expression.evaluate environment .execute
        Desk.expectEnd
        Expression.number (pure value) : Attempt (Desk H) Int) config.word.Fits := by
    rw [← same] at sound upheld ⊢
    apply (Expression.sustains_evaluateWithin sound upheld _).bind
    intro value storable
    apply (Desk.sustains_scanned _).bind
    intro _ _
    cases value with
    | number value => exact Attempt.sustains_pure storable
    | text codes => exact Attempt.sustains_throw _
  intro desk steady
  unfold entryNumber
  dsimp only
  split
  next value changed run =>
    have reached := (congrArg (Attempt.Meets _ _) run).mp (entry desk steady)
    refine ⟨fun other same => ?_, reached.2⟩
    cases same
    exact reached.1
  next fault changed run =>
    have reached := (congrArg (Attempt.Meets _ _) run).mp (entry desk steady)
    exact ⟨fun _ valued => (by cases valued), reached⟩

/-- What is taken for an entry can be stored. -/
theorem Sound.takeEntry (sound : machine.Sound config holds) (isText : Bool) :
    (machine.takeEntry isText).2.Sound config holds ∧
      ∀ value, (machine.takeEntry isText).1 = .value value → value.Storable config.word := by
  have refreshed : Sound config holds { machine with edit := machine.edit.refresh } :=
    { sound with }
  unfold Machine.takeEntry
  dsimp only
  cases isText with
  | true =>
      rw [if_pos rfl]
      split
      next => exact ⟨{ sound with }, nofun⟩
      next unquoted =>
        refine ⟨refreshed, fun value same => ?_⟩
        cases same
        intro member
        have other := List.findIdx?_eq_none_iff.mp unquoted _ member
        simp at other
  | false =>
      rw [if_neg (by decide)]
      have entered : Upkeeps config holds
          (atDesk (.ofBytes machine.edit.refresh.bytes 0) entryNumber : Attempt (Machine H) _)
          fun entered => ∀ value, entered = .ok value → config.word.Fits value :=
        upkeeps_atDesk fun _ => sustains_entryNumber upheld
      have reached := entered _ refreshed
      split
      next run =>
        rw [run] at reached
        refine ⟨reached.2, fun other same => ?_⟩
        cases same
        exact reached.1 _ rfl
      next run =>
        rw [run] at reached
        exact ⟨{ reached.2 with }, nofun⟩
      next run =>
        rw [run] at reached
        exact ⟨reached.2, nofun⟩
      next run =>
        rw [run] at reached
        exact ⟨reached, nofun⟩

theorem Sound.advanceEntry (sound : machine.Sound config holds) {target : Target}
    (named : target.Named) : (machine.advanceEntry target).Sound config holds := by
  have shown := sound.showEdit upheld .letter
  have keyed : Sound config holds { machine.showEdit .letter with
      console := (Console.nextKey (machine.showEdit .letter).console).2 } :=
    { shown with console := upheld.nextKey _ shown.console }
  have displayed := upheld.displayed (machine.showEdit .letter).console
  unfold Machine.advanceEntry
  dsimp only
  generalize Console.nextKey (machine.showEdit .letter).console = pressed at keyed displayed ⊢
  obtain ⟨key, console⟩ := pressed
  dsimp only at keyed ⊢
  split
  · exact (keyed.endEntry upheld).conclude upheld true _
  · exact (keyed.endEntry upheld).conclude upheld true _
  · have taken := keyed.takeEntry upheld target.isText
    split
    next value changed run =>
      rw [run] at taken
      have assigned := upkeeps_assign named (taken.2 value rfl) _ (taken.1.endEntry upheld)
      exact sound_proceed upheld assigned true
    next run =>
      rw [run] at taken
      exact taken.1
    next run =>
      rw [run] at taken
      exact (taken.1.endEntry upheld).conclude upheld true _
  · exact keyed
  · exact keyed
  · exact keyed.withEdit (EditLine.oneLine_editKey (displayed _ shown.console rfl) keyed.oneLine)

/-! ## Time -/

theorem Sound.endPause (sound : machine.Sound config holds) (sounding : Bool) :
    (machine.endPause sounding).Sound config holds := by
  unfold Machine.endPause
  split
  · exact { sound with console := upheld.stopTone _ sound.console }
  · exact sound

theorem Sound.advancePause (sound : machine.Sound config holds) (deadline : Nat)
    (sounding inProgram : Bool) :
    (machine.advancePause deadline sounding inProgram).Sound config holds := by
  have looked : Sound config holds
      { machine with console := (Console.breakHeld machine.console).2 } :=
    { sound with console := upheld.breakHeld _ sound.console }
  unfold Machine.advancePause
  dsimp only
  split
  · exact (sound.endPause upheld sounding).lineDone upheld inProgram
  · split
    · exact (looked.endPause upheld sounding).conclude upheld inProgram _
    · exact { looked with console := upheld.delay _ _ looked.console }

end

/-- Takes keys one after the other, with no step between them. -/
def pressAll (keys : List Key) (machine : Machine H) : Machine H :=
  keys.foldl (fun machine key => (machine.press key).2) machine

theorem pressAll_append (first second : List Key) (machine : Machine H) :
    machine.pressAll (first ++ second) = (machine.pressAll first).pressAll second :=
  List.foldl_append

/-! ## Lines -/

/-- A line that is about to be carried out. -/
structure Turn (H : Type) where
  inProgram : Bool
  scanner : Scanner
  machine : Machine H

/-- The line that the next step carries out, if it carries out any. -/
def turn? (machine : Machine H) : Option (Turn H) :=
  match machine.phase with
  | .direct statement => some ⟨false, .ofBytes statement 0, machine⟩
  | .running =>
      if machine.upcoming = 0 then
        none
      else
        some ⟨true,
          .ofBytes machine.program.bytes ((machine.program.find machine.upcoming).1 + 2),
          { machine with jump := none, line := machine.upcoming }⟩
  | _ => none

omit [Console H] in
/-- A line is a direct one, or the next one of the program. -/
theorem turn?_cases {turn : Turn H} (found : machine.turn? = some turn) :
    (∃ statement, machine.phase = .direct statement ∧
      turn = ⟨false, .ofBytes statement 0, machine⟩) ∨
    (machine.phase = .running ∧ machine.upcoming ≠ 0 ∧
      turn = ⟨true,
        .ofBytes machine.program.bytes ((machine.program.find machine.upcoming).1 + 2),
        { machine with jump := none, line := machine.upcoming }⟩) := by
  unfold turn? at found
  split at found
  next statement phase =>
    cases found
    exact .inl ⟨statement, phase, rfl⟩
  next phase =>
    split at found
    next => cases found
    next more =>
      cases found
      exact .inr ⟨phase, more, rfl⟩
  next => cases found

omit [Console H] in
/-- The machine of a turn differs from the one that takes it in where it is in the program alone. -/
theorem exists_of_turn? {turn : Turn H} (found : machine.turn? = some turn) :
    ∃ jump line, turn.machine = { machine with jump, line } := by
  rcases turn?_cases found with ⟨statement, -, rfl⟩ | ⟨-, -, rfl⟩
  · exact ⟨machine.jump, machine.line, rfl⟩
  · exact ⟨none, machine.upcoming, rfl⟩

/-- The command that the next step carries out, if it carries out any. -/
def asked (machine : Machine H) : Option Command :=
  machine.turn?.bind fun turn =>
    match (atDesk turn.scanner (Statement.line · .execute) turn.machine).1 with
    | .ok command => command
    | .error _ => none

/-- A step that carries out a line does only that, and then goes on. -/
theorem advance_eq_proceed {turn : Turn H} (found : machine.turn? = some turn) :
    machine.advance = proceed turn.inProgram (carryOut turn.scanner turn.machine) := by
  rcases turn?_cases found with ⟨statement, phase, rfl⟩ | ⟨phase, more, rfl⟩
  · rw [advance, phase]
  · have running : machine.advance = machine.advanceProgram := by rw [advance, phase]
    rw [running, advanceProgram]
    exact if_neg more

omit [Console H] in
/-- A line is carried out by a machine that does not let time pass. -/
theorem phase_turn {turn : Turn H} (found : machine.turn? = some turn) :
    turn.machine.phase = .running ∨ ∃ statement, turn.machine.phase = .direct statement := by
  rcases turn?_cases found with ⟨statement, phase, rfl⟩ | ⟨phase, -, rfl⟩
  · exact .inr ⟨statement, phase⟩
  · exact .inl phase

/-- A line that ended well is done, unless it lets time pass. -/
theorem proceed_eq_lineDone
    (phase : machine.phase = .running ∨ ∃ statement, machine.phase = .direct statement)
    (inProgram : Bool) : proceed inProgram (.ok (), machine) = machine.lineDone inProgram := by
  rcases phase with running | ⟨statement, direct⟩
  · rw [proceed, running]
  · rw [proceed, direct]

omit [Console H] in
theorem Sound.turn {turn : Turn H} (sound : machine.Sound config holds)
    (found : machine.turn? = some turn) : turn.machine.Sound config holds := by
  obtain ⟨jump, line, same⟩ := exists_of_turn? found
  rw [same]
  exact { sound with }

section
variable (upheld : Console.Upheld config.word savable holds)
include upheld

theorem upkeeps_readLine (scanner : Scanner) :
    Upkeeps config holds
      (atDesk scanner (Statement.line · .execute) : Attempt (Machine H) (Option Command))
      fun found => ∀ command, found = some command → command.Sound config.word := by
  refine upkeeps_atDesk fun environment same sound => ?_
  rw [← same] at sound upheld ⊢
  exact Statement.sustains_line sound upheld

/-- A line that is carried out leaves a machine sound if it saves only where it may. -/
theorem Sound.advance_turn (room : 1 ≤ config.variablesSize) {turn : Turn H}
    (sound : machine.Sound config holds) (found : machine.turn? = some turn)
    (permitted : ∀ command, machine.asked = some command → command.Permitted savable) :
    machine.advance.Sound config holds := by
  rw [advance_eq_proceed found]
  refine sound_proceed upheld ?_ _
  have read := upkeeps_readLine upheld turn.scanner turn.machine (sound.turn found)
  unfold asked at permitted
  rw [found] at permitted
  dsimp only [Option.bind_some] at permitted
  unfold carryOut
  rw [Attempt.bind_apply]
  generalize atDesk turn.scanner (Statement.line · .execute) turn.machine = outcome
    at read permitted ⊢
  rcases outcome with ⟨fault | _ | command, changed⟩
  · exact read
  · exact ⟨trivial, read.2⟩
  · exact upkeeps_perform upheld room (read.1 command rfl) (permitted command rfl) _ read.2

/-- A step leaves a machine sound, if it saves only where it may. -/
theorem Sound.advance (room : 1 ≤ config.variablesSize) (sound : machine.Sound config holds)
    (permitted : ∀ command, machine.asked = some command → command.Permitted savable) :
    machine.advance.Sound config holds := by
  cases phase : machine.phase with
  | editing =>
      rw [Machine.advance, phase]
      exact sound
  | direct statement =>
      exact sound.advance_turn upheld room (by rw [turn?, phase]) permitted
  | running =>
      by_cases ended : machine.upcoming = 0
      · have landed : Sound config holds { machine with jump := none } := { sound with }
        have whole := landed.conclude upheld true (.ok ())
        rw [Machine.advance, phase]
        dsimp only [advanceProgram]
        rw [if_pos ended]
        exact whole
      · exact sound.advance_turn upheld room (by rw [turn?, phase]; exact if_neg ended) permitted
  | entering target =>
      rw [Machine.advance, phase]
      exact sound.advanceEntry upheld (sound.entry target phase)
  | pausing deadline sounding inProgram =>
      rw [Machine.advance, phase]
      exact sound.advancePause upheld deadline sounding inProgram

/-! ## The line editor -/

theorem sound_start (programRoom : 2 ≤ config.programSize) (room : 1 ≤ config.variablesSize)
    {console : H} (ready : holds console) : (start config console).Sound config holds := by
  apply Sound.refreshEdit upheld
  exact ⟨rfl, Program.sound_empty programRoom, Variables.sound_empty room, List.not_mem_nil,
    nofun, ready⟩

omit upheld [Console H] in
theorem Sound.recallLine (sound : machine.Sound config holds) (offset : Nat) :
    (machine.recallLine offset).Sound config holds := by
  unfold Machine.recallLine
  cases found : machine.program.lineAt? offset with
  | none => exact sound
  | some line =>
      have oneLine := Program.oneLine_of_headLine? found
      exact sound.withEdit (Line.oneLine_listing oneLine _)

omit upheld [Console H] in
theorem Sound.recallPrevious (sound : machine.Sound config holds) :
    machine.recallPrevious.Sound config holds := by
  unfold Machine.recallPrevious
  split
  · exact sound.recallLine _
  · exact sound

theorem Sound.submitBlank (sound : machine.Sound config holds) :
    machine.submitBlank.Sound config holds := by
  have cleared : Sound config holds { machine with
      edit := machine.edit.clear, console := Console.clear machine.console } :=
    { sound with oneLine := List.not_mem_nil, console := upheld.clear _ sound.console }
  have listed := upkeeps_list upheld 0 _ cleared
  unfold Machine.submitBlank
  dsimp only
  generalize list 0 { machine with
    edit := machine.edit.clear, console := Console.clear machine.console } = outcome at listed ⊢
  rcases outcome with ⟨fault | _, changed⟩
  · exact Sound.refreshEdit upheld listed
  · exact Sound.refreshEdit upheld listed.2

theorem Sound.submitDirect (sound : machine.Sound config holds) (statement : List Code) :
    (machine.submitDirect statement).Sound config holds :=
  { sound with entry := nofun, console := upheld.clear _ sound.console }

theorem Sound.submit (sound : machine.Sound config holds) :
    (machine.press .enter).2.Sound config holds := by
  have examined : machine.examined.Sound config holds := { sound with }
  have submitted := machine.submitted
  generalize machine.press .enter = answer at submitted ⊢
  cases submitted with
  | blank => exact sound.submitBlank upheld
  | refused => exact examined.refreshEdit upheld
  | direct => exact examined.submitDirect upheld _
  | full => exact (examined.report upheld _ _).refreshEdit upheld
  | stored zero read run =>
      have numbered := (EditLine.numbered_check read).resolve_left zero
      have oneLine : Code.newline ∉ machine.typedStatement :=
        fun member => oneLine_crunch sound.oneLine (List.mem_of_mem_drop member)
      apply Sound.refreshEdit upheld
      exact { examined with
        program := sound.program.insert numbered oneLine run
        oneLine := List.not_mem_nil }

/-- A key that types a display code leaves a machine sound, whatever it is doing. -/
theorem Sound.press (sound : machine.Sound config holds) {key : Key}
    (displayed : key.Displayed) : (machine.press key).2.Sound config holds := by
  unfold Machine.press
  split
  · exact sound.submit upheld
  · exact sound.recallPrevious.refreshEdit upheld
  · exact (sound.recallLine _).refreshEdit upheld
  · refine Sound.refreshEdit upheld (sound.withEdit ?_)
    exact EditLine.oneLine_editKey displayed sound.oneLine

end

end Machine
end HomeBasic
