import HomeBasic.Proofs.Machine.Jumps
import HomeBasic.Proofs.Program.Walking
import HomeBasic.Recorder

/-!
# Breaks and what `CONT` goes on with

The break key is looked at when a line of a program has ended well. The stop reports the
line that follows in the program, and `CONT` goes on there. A jump that the line asked
for is forgotten, so the run goes on as if there had been no break exactly if there is no
such jump, or if it leads to the line that follows anyway.

Main statements: where a run goes on after a break (`resumesAt_nextLineNumber`), and when
that is where it would have gone on (`resumesAt_ahead_iff`).
-/

namespace HomeBasic

/-- Where a jump leads to, zero if it ends the run. -/
def Program.landing (program : Program) (target : Nat) : Nat :=
  if target = 0 then 0 else program.firstFrom target

/-- The line that is found is where a jump to its own number leads. -/
theorem Program.landing_firstFrom (program : Program) (number : Nat) :
    program.landing (program.firstFrom number) = program.firstFrom number := by
  unfold landing
  split
  next none => exact none.symm
  next more => exact program.firstFrom_firstFrom more

namespace Machine

variable {H : Type} {machine : Machine H}

/-! ## Going on -/

/-- The line of the program that a machine goes on to, zero if it goes on to none. -/
def ahead (machine : Machine H) : Nat :=
  match machine.phase with
  | .running => machine.upcoming
  | _ => 0

/-- A step carries out the line that is ahead, if there is one. -/
theorem exists_turn?_of_ahead (more : machine.ahead ≠ 0) :
    ∃ turn, machine.turn? = some turn ∧ turn.inProgram = true ∧
      turn.machine.line = machine.ahead := by
  unfold ahead at more ⊢
  split at more
  next phase =>
    rw [turn?, phase]
    exact ⟨_, if_neg more, rfl, rfl⟩
  next => exact absurd rfl more

theorem upcoming_of_jump {target : Nat} (jump : machine.jump = some target) :
    machine.upcoming = machine.program.landing target := by
  rw [upcoming, jump, Program.landing]
  cases target with
  | zero => rfl
  | succ target => rfl

theorem upcoming_of_none (jump : machine.jump = none) :
    machine.upcoming = machine.nextLineNumber := by
  rw [upcoming, jump]

/-- The line that follows is found again by its own number. -/
theorem firstFrom_nextLineNumber (more : machine.nextLineNumber ≠ 0) :
    machine.program.firstFrom machine.nextLineNumber = machine.nextLineNumber := by
  unfold nextLineNumber at more ⊢
  split at more
  next => exact absurd rfl more
  next inProgram =>
    rw [if_neg inProgram]
    exact machine.program.firstFrom_firstFrom more

/-! ## Typing at a machine -/

variable [Console H]

/-- Checking and showing the edit line changes nothing else. -/
theorem exists_refreshEdit (machine : Machine H) :
    ∃ edit glyph codes,
      machine.refreshEdit =
        { machine with edit, glyph, console := Console.showEditLine codes machine.console } ∧
      edit.text = machine.edit.text ∧ edit.cursor = machine.edit.cursor := by
  unfold refreshEdit
  dsimp only
  split
  · exact ⟨_, _, _, rfl, rfl, rfl⟩
  · exact ⟨_, _, _, rfl, rfl, rfl⟩

/-- Codes that are typed at the end of the edit line change nothing but what is shown. -/
theorem exists_pressAll_codes (codes : List Code)
    (atEnd : machine.edit.cursor = machine.edit.text.length) :
    ∃ edit glyph console,
      machine.pressAll (codes.map .code) = { machine with edit, glyph, console } ∧
        edit.text = machine.edit.text ++ codes ∧ edit.cursor = edit.text.length := by
  induction codes generalizing machine with
  | nil => exact ⟨machine.edit, machine.glyph, machine.console, rfl, by simp, atEnd⟩
  | cons code rest inductionHypothesis =>
      obtain ⟨edit, glyph, shown, pressed, text, cursor⟩ := exists_refreshEdit
        { machine with edit := machine.edit.insert code }
      have inserted : edit.text = machine.edit.text ++ [code] := by
        rw [text, EditLine.insert, atEnd]
        simp
      have ends : edit.cursor = edit.text.length := by
        rw [cursor, inserted]
        simp [EditLine.insert, atEnd]
      obtain ⟨later, laterGlyph, laterConsole, typed, laterText, laterEnd⟩ :=
        @inductionHypothesis
          { machine with edit, glyph, console := Console.showEditLine shown machine.console } ends
      refine ⟨later, laterGlyph, laterConsole, ?_, ?_, laterEnd⟩
      · have first : (machine.press (.code code)).2 =
            { machine with edit, glyph, console := Console.showEditLine shown machine.console } :=
          pressed
        rw [List.map_cons, pressAll, List.foldl_cons, first]
        exact typed
      · rw [laterText, inserted]
        simp

/-! ## Typing `CONT` -/

/-- The edit line of a typed `CONT` as it is scanned. -/
def contScanner : Scanner :=
  ⟨0, [StatementWord.cont.code, Code.newline], some 1, none, true⟩

theorem ofEditLine_cont {edit : EditLine} (text : edit.text = Code.encode "CONT")
    (cursor : edit.cursor = edit.text.length) :
    Scanner.ofEditLine edit.refresh = contScanner := by
  rw [text] at cursor
  unfold Scanner.ofEditLine EditLine.bytes EditLine.refresh
  simp only [text, cursor]
  decide +kernel

theorem readLineNumber_cont (calculator : BoundedStack Pending) :
    EditLine.readLineNumber (⟨contScanner, calculator, {}⟩ : Desk NoConsole) =
      (.ok 0, ⟨contScanner.look, calculator, {}⟩) := by
  rfl

theorem line_check_cont (environment : Environment) (calculator : BoundedStack Pending) :
    (Statement.line environment .check
      (⟨contScanner.look, calculator, {}⟩ : Desk NoConsole)).1 = .ok (some .cont) := by
  rfl

/-- A typed `CONT` is a direct line, whatever machine it is typed at. -/
theorem check_cont (config : Config) {edit : EditLine} (text : edit.text = Code.encode "CONT")
    (cursor : edit.cursor = edit.text.length) :
    (edit.refresh.check config).result = .ok 0 ∧ (edit.refresh.check config).body = 0 := by
  have checked := line_check_cont (.blank config) (.empty config.calculatorDepth)
  unfold EditLine.check
  simp only [ofEditLine_cont text cursor, readLineNumber_cont]
  generalize Statement.line (Environment.blank config) .check (⟨contScanner.look,
    .empty config.calculatorDepth, {}⟩ : Desk NoConsole) = outcome at checked ⊢
  rcases outcome with ⟨fault | command, desk⟩
  · cases checked
  · exact ⟨rfl, rfl⟩

/-- The keys of a `CONT` that is typed and entered. -/
def contKeys : List Key :=
  (Code.encode "CONT").map .code ++ [.enter]

/-- What `CONT` is crunched to. -/
theorem bytes_cont {edit : EditLine} (text : edit.text = Code.encode "CONT") :
    edit.refresh.bytes.dropLast = [StatementWord.cont.code] := by
  unfold EditLine.bytes EditLine.refresh
  simp only [text]
  decide +kernel

/-- `CONT` is typed and entered. -/
theorem exists_pressAll_cont (text : machine.edit.text = []) (cursor : machine.edit.cursor = 0) :
    ∃ edit glyph console,
      machine.pressAll contKeys =
        { machine with
          edit, glyph, console, phase := .direct [StatementWord.cont.code], line := 0,
          jump := none } := by
  obtain ⟨edit, glyph, console, typed, written, atEnd⟩ :=
    @exists_pressAll_codes _ machine _ (Code.encode "CONT") (by rw [text, cursor, List.length_nil])
  rw [text, List.nil_append] at written
  have present : edit.isBlank = false := by
    rw [EditLine.isBlank, written]
    decide +kernel
  obtain ⟨result, body⟩ := check_cont machine.config written atEnd
  refine ⟨edit.refresh, (edit.refresh.check machine.config).glyph, Console.clear console, ?_⟩
  have entered : machine.pressAll contKeys =
      (press .enter { machine with edit, glyph, console }).2 := by
    rw [← typed, contKeys, pressAll_append]
    rfl
  rw [entered, press, submit]
  simp only [present, Bool.false_eq_true, if_false, result, submitDirect, EditLine.statement, body,
    bytes_cont written, List.drop_zero]

/-- Carrying out `CONT` reads nothing of the machine but the line to go on at. -/
theorem carryOut_cont (machine : Machine H) :
    carryOut (.ofBytes [StatementWord.cont.code] 0) machine =
      (.ok (), if machine.resumeLine = 0 then machine else machine.goto machine.resumeLine) := by
  rfl

/-! ## Breaks -/

/-- The machine once a break after a line was answered with `CONT`. -/
def resumed (machine : Machine H) : Machine H :=
  ((machine.lineDone true).pressAll contKeys).advance

/--
After a break at the end of a line the stop reports a line, and `CONT` goes on with that
line, or ends at once where it is zero. Nothing that the program can read was changed.
-/
structure ResumesAt (machine : Machine H) (line : Nat) : Prop where
  reported : ∃ codes, (machine.lineDone true).console =
    Console.showEditLine codes
      (Console.showReport (reportText '9' line) (Console.breakHeld machine.console).2)
  ahead : machine.resumed.ahead = line
  carriesOut : line ≠ 0 → ∃ turn, machine.resumed.turn? = some turn ∧
    turn.inProgram = true ∧ turn.machine.line = line
  ended : line = 0 → machine.resumed.phase = .editing
  program : machine.resumed.program = machine.program
  variableStore : machine.resumed.variableStore = machine.variableStore
  returns : machine.resumed.returns = machine.returns
  data : machine.resumed.data = machine.data
  memory : machine.resumed.memory = machine.memory

/-- A stop by the break key leaves the edit line empty and the line that follows to go on at. -/
theorem exists_lineDone_held (held : (Console.breakHeld machine.console).1 = true) :
    ∃ edit glyph codes,
      machine.lineDone true =
        { machine with
          edit, glyph
          console := Console.showEditLine codes (Console.showReport
            (reportText '9' machine.nextLineNumber) (Console.breakHeld machine.console).2)
          resumeLine := machine.nextLineNumber
          jump := none
          phase := .editing } ∧
      edit.text = [] ∧ edit.cursor = 0 := by
  have stops : machine.lineDone true =
      conclude true (.error .stopped)
        { machine with console := (Console.breakHeld machine.console).2 } := by
    unfold lineDone
    dsimp only
    rw [if_pos rfl, if_pos held]
  rw [stops]
  exact exists_refreshEdit _

theorem resumesAt_nextLineNumber (held : (Console.breakHeld machine.console).1 = true) :
    machine.ResumesAt machine.nextLineNumber := by
  obtain ⟨edit, glyph, codes, stopped, text, cursor⟩ := exists_lineDone_held held
  obtain ⟨later, laterGlyph, console, typed⟩ := @exists_pressAll_cont _ (machine.lineDone true) _
    (by rw [stopped]; exact text) (by rw [stopped]; exact cursor)
  have resumes : machine.resumed =
      proceed false (carryOut (.ofBytes [StatementWord.cont.code] 0)
        ((machine.lineDone true).pressAll contKeys)) := by
    rw [resumed, typed]
    rfl
  have reported : ∃ codes, (machine.lineDone true).console =
      Console.showEditLine codes (Console.showReport
        (reportText '9' machine.nextLineNumber) (Console.breakHeld machine.console).2) :=
    ⟨codes, by rw [stopped]⟩
  rw [carryOut_cont, typed, stopped] at resumes
  dsimp only at resumes
  by_cases more : machine.nextLineNumber = 0
  · -- `CONT` has nowhere to go on, so the direct line is all there is.
    rw [if_pos more] at resumes
    replace resumes := resumes.trans (rfl : _ = conclude false (.ok ()) _)
    refine ⟨reported, ?_, fun nonzero => absurd more nonzero, fun _ => ?_, ?_, ?_, ?_, ?_, ?_⟩
    · rw [resumes, more]
      rfl
    all_goals
      rw [resumes]
      rfl
  · rw [if_neg more] at resumes
    have goesOn : machine.resumed.ahead = machine.nextLineNumber := by
      rw [resumes]
      apply (upcoming_of_jump rfl).trans
      rw [Program.landing, if_neg more]
      exact firstFrom_nextLineNumber more
    have carriesOut : ∃ turn, machine.resumed.turn? = some turn ∧ turn.inProgram = true ∧
        turn.machine.line = machine.nextLineNumber := by
      rw [← goesOn]
      exact exists_turn?_of_ahead (by rwa [goesOn])
    refine ⟨reported, goesOn, fun _ => carriesOut, fun zero => absurd zero more,
      ?_, ?_, ?_, ?_, ?_⟩
    all_goals
      rw [resumes]
      rfl

/--
A run that is broken at the end of a line goes on with the line that follows in the
program. That is where it would have gone on without the break exactly if no jump is
pending, or one that leads to the line that follows. A jump is pending if the line that
ended asked for one.
-/
theorem resumesAt_ahead_iff (held : (Console.breakHeld machine.console).1 = true) :
    let unbroken : Machine H :=
      { machine with console := (Console.breakHeld machine.console).2, phase := .running }
    machine.ResumesAt machine.nextLineNumber ∧
      (machine.ResumesAt unbroken.ahead ↔
        ∀ target, machine.jump = some target →
          machine.program.landing target = machine.nextLineNumber) ∧
      ∀ turn : Turn H, turn.machine.jump = none →
        carryOut turn.scanner turn.machine = (.ok (), machine) → machine.jump = turn.jump? := by
  intro unbroken
  have resumes := resumesAt_nextLineNumber held
  have ahead : unbroken.ahead = machine.upcoming := rfl
  refine ⟨resumes, ⟨fun transparent target jump => ?_, fun leads => ?_⟩,
    fun turn => jump_carryOut⟩
  · rw [← resumes.ahead, transparent.ahead, ahead, upcoming_of_jump jump]
  · cases jump : machine.jump with
    | none => rwa [ahead, upcoming_of_none jump]
    | some target => rwa [ahead, upcoming_of_jump jump, leads target jump]

/-- After `10 GOTO 30` a break reports line 20 and goes on there, and not at line 30. -/
theorem resumesAt_ahead_iff_goto :
    let program := Image.storeLines (["10 GOTO 30", "20 CLS", "30 CLS"].map Line.ofText)
      (Program.empty 64)
    let console := (Recorder.start {} [] (MemorySlots.empty 1)).newPage 0
    let machine := (carryOut (.ofBytes program.bytes 2)
      { start {} console with program, phase := .running, line := 10 }).2
    machine.line = 10 ∧ machine.jump = some 30 ∧ machine.ResumesAt 20 ∧ ¬machine.ResumesAt 30 := by
  intro program console machine
  have line : machine.line = 10 := by decide +kernel
  have jump : machine.jump = some 30 := by decide +kernel
  have follows : machine.nextLineNumber = 20 := by decide +kernel
  have lands : machine.program.landing 30 = 30 := by decide +kernel
  have held : (Console.breakHeld machine.console).1 = true := by decide +kernel
  clear_value machine
  have ahead : machine.upcoming = 30 := (upcoming_of_jump jump).trans lands
  obtain ⟨resumes, transparent, _⟩ := resumesAt_ahead_iff held
  rw [follows] at resumes transparent
  refine ⟨line, jump, resumes, fun wrong => ?_⟩
  rw [← ahead] at wrong
  have leads := transparent.mp wrong 30 jump
  rw [lands] at leads
  exact absurd leads (by decide)

end Machine
end HomeBasic
