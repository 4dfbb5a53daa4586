import HomeBasic.Proofs.Machine.Course
import HomeBasic.Proofs.Machine.Resumption

/-!
# Direct lines between a stop and `CONT`

A stopped program leaves a line to go on at. A direct line that ends well keeps it, unless it
clears the variables, and so `CONT` goes on there with the variables as the line left them. A
direct line that fails is remembered in its place: it has no number, so there is nothing to go
on with any more.

Main statement: `continuesAt_iff`, for direct lines of any kind that leave no jump, and however
they end.
-/

namespace HomeBasic

open Attempt (Sustains)

namespace Machine

variable {H α : Type} {machine first second third : Machine H}

/-! ## What a line keeps to -/

/-- A machine is still at its line, with the same line to go on at; in a direct line it may have
begun to let time pass. -/
structure AtWork (first second : Machine H) : Prop where
  line : second.line = first.line
  resumeLine : second.resumeLine = first.resumeLine
  phase : first.phase ≠ .running → second.phase = first.phase ∨
    ∃ deadline sounding, second.phase = .pausing deadline sounding false

theorem AtWork.refl (machine : Machine H) : AtWork machine machine :=
  ⟨rfl, rfl, fun _ => .inl rfl⟩

theorem AtWork.trans (step : AtWork first second) (next : AtWork second third) :
    AtWork first third := by
  refine ⟨next.line.trans step.line, next.resumeLine.trans step.resumeLine, fun direct => ?_⟩
  rcases step.phase direct with same | ⟨deadline, sounding, pauses⟩
  · rw [← same] at direct ⊢
    exact next.phase direct
  · have busy : second.phase ≠ .running := by
      rw [pauses]
      nofun
    rcases next.phase busy with same | again
    · exact .inr ⟨deadline, sounding, same.trans pauses⟩
    · exact .inr again

/-- A step keeps a machine at its line. -/
abbrev Remains (step : Attempt (Machine H) α) : Prop :=
  ∀ machine, Sustains (AtWork machine) step fun _ => True

theorem AtWork.frame : Frame (AtWork (H := H)) where
  refl := .refl
  trans := .trans
  console _ _ := ⟨rfl, rfl, fun _ => .inl rfl⟩
  memory _ _ := ⟨rfl, rfl, fun _ => .inl rfl⟩
  goto _ _ := ⟨rfl, rfl, fun _ => .inl rfl⟩
  loops _ _ _ := ⟨rfl, rfl, fun _ => .inl rfl⟩
  entry _ _ running := ⟨rfl, rfl, fun direct => absurd running direct⟩
  pause machine deadline sounding := by
    refine ⟨rfl, rfl, fun direct => .inr ⟨deadline, sounding, ?_⟩⟩
    change Phase.pausing _ sounding (machine.phase = .running) = _
    rw [decide_eq_false direct]

variable [Console H]

/-- A command keeps the line to go on at, unless it forgets calls and loops with it. -/
theorem remains_perform {command : Command} (keeps : ¬command.Forgets) :
    Remains (perform command : Attempt (Machine H) Unit) :=
  AtWork.frame.keeps_perform_of_not_forgets keeps
    (fun _ _ _ => ⟨rfl, rfl, fun _ => .inl rfl⟩) (fun _ _ => ⟨rfl, rfl, fun _ => .inl rfl⟩)
    fun _ _ => ⟨rfl, rfl, fun _ => .inl rfl⟩

theorem remains_carryOut (scanner : Scanner)
    (keeps : ∀ command carrier,
      atDesk scanner (Statement.line · .execute) machine = (.ok (some command), carrier) →
        ¬command.Forgets) :
    AtWork machine (carryOut scanner machine).2 := by
  have read := AtWork.frame.related
    (AtWork.frame.keeps_atDesk scanner (Statement.line · .execute)) machine
  rw [carryOut, Attempt.bind_apply]
  rcases line : atDesk scanner (Statement.line · .execute) machine with
    ⟨fault | _ | command, carrier⟩
  all_goals rw [line] at read
  · exact read
  · exact read
  · exact read.trans (AtWork.frame.related (remains_perform (keeps command carrier line)) carrier)

/-! ## How a direct line ends -/

/-- How the next step ends a direct line, if it ends it: by what carrying it out comes to, unless
that takes time, and then at the end of that time or by a break. -/
def ending? (machine : Machine H) : Option (Except Fault Unit) :=
  match machine.phase with
  | .direct statement =>
      match carryOut (.ofBytes statement 0) machine with
      | (.error fault, _) => some (.error fault)
      | (.ok (), carrier) =>
          match carrier.phase with
          | .pausing .. => none
          | _ => some (.ok ())
  | .pausing deadline _ _ =>
      if deadline ≤ Console.clock machine.console then some (.ok ())
      else if (Console.breakHeld machine.console).1 then some (.error .stopped)
      else none
  | _ => none

/-- How a direct line ends within so many steps. -/
def endsWith? : (steps : Nat) → Machine H → Option (Except Fault Unit)
  | 0, _ => none
  | steps + 1, machine =>
      match machine.ending? with
      | some outcome => some outcome
      | none => machine.advance.endsWith? steps

/-- A step that ends a direct line is the last one. -/
theorem endsWith?_of_ending? {outcome : Except Fault Unit} (ends : machine.ending? = some outcome)
    (steps : Nat) : machine.endsWith? (steps + 1) = some outcome := by
  rw [endsWith?, ends]

theorem endsWith?_of_none (goesOn : machine.ending? = none) (steps : Nat) :
    machine.endsWith? (steps + 1) = machine.advance.endsWith? steps := by
  rw [endsWith?, goesOn]

theorem settle_of_busy (busy : machine.phase ≠ .editing) (steps : Nat) :
    machine.settle (steps + 1) = machine.advance.settle steps := by
  rw [settle]
  split
  next editing => exact absurd editing busy
  next => rfl

theorem phase_conclude (inProgram : Bool) (outcome : Except Fault Unit) (machine : Machine H) :
    (machine.conclude inProgram outcome).phase = .editing := by
  unfold conclude
  dsimp only
  split <;> rfl

theorem lineDone_direct (calm : machine.jump = none) :
    machine.lineDone false = machine.conclude false (.ok ()) := by
  rw [lineDone, if_neg (by decide), if_neg (by rw [calm]; decide)]

theorem exists_endPause (sounding : Bool) (machine : Machine H) :
    ∃ console, machine.endPause sounding = { machine with console } := by
  unfold endPause
  split
  · exact ⟨_, rfl⟩
  · exact ⟨machine.console, rfl⟩

/-- A pause of a direct line comes to the end of that line, and changes only the console. -/
theorem exists_settle_pausing {deadline steps : Nat} {sounding : Bool}
    (pausing : machine.phase = .pausing deadline sounding false) (calm : machine.jump = none)
    (ended : (machine.settle steps).phase = .editing) :
    ∃ outcome console, machine.endsWith? steps = some outcome ∧
      machine.settle steps = conclude false outcome { machine with console } := by
  induction steps generalizing machine with
  | zero => cases pausing.symm.trans ended
  | succ steps inductionHypothesis =>
      rw [settle_of_busy (by rw [pausing]; nofun)] at ended ⊢
      have advances : machine.advance = machine.advancePause deadline sounding false := by
        rw [advance, pausing]
      by_cases elapsed : deadline ≤ Console.clock machine.console
      · have ends : machine.ending? = some (.ok ()) := by
          rw [ending?, pausing]
          exact if_pos elapsed
        obtain ⟨console, quiet⟩ := exists_endPause sounding machine
        refine ⟨.ok (), console, endsWith?_of_ending? ends steps, ?_⟩
        have done :=
          lineDone_direct (show ({ machine with console } : Machine H).jump = none from calm)
        rw [advances, advancePause, if_pos elapsed, quiet, done]
        exact settle_of_editing (phase_conclude _ _ _) steps
      · cases held : (Console.breakHeld machine.console).1 with
        | true =>
            have ends : machine.ending? = some (.error .stopped) := by
              rw [ending?, pausing]
              dsimp only
              rw [if_neg elapsed, if_pos held]
            obtain ⟨console, quiet⟩ := exists_endPause sounding
              { machine with console := (Console.breakHeld machine.console).2 }
            refine ⟨.error .stopped, console, endsWith?_of_ending? ends steps, ?_⟩
            rw [advances, advancePause]
            dsimp only
            rw [if_neg elapsed, if_pos held, quiet]
            exact settle_of_editing (phase_conclude _ _ _) steps
        | false =>
            have goesOn : machine.ending? = none := by
              rw [ending?, pausing]
              dsimp only
              rw [if_neg elapsed, held]
              rfl
            have waits : ∃ console, machine.advance = { machine with console } := by
              rw [advances, advancePause]
              dsimp only
              rw [if_neg elapsed, held]
              exact ⟨_, rfl⟩
            obtain ⟨waited, waits⟩ := waits
            rw [endsWith?_of_none goesOn]
            rw [waits] at ended ⊢
            exact inductionHypothesis pausing calm ended

/-- A direct line is at work until it ends. -/
theorem atWork_direct {statement : List Code} (direct : machine.phase = .direct statement)
    (keeps : ∀ command ∈ machine.asked, ¬command.Forgets) :
    AtWork machine (carryOut (.ofBytes statement 0) machine).2 := by
  refine remains_carryOut _ fun command carrier line => keeps command ?_
  rw [asked, turn?, direct, Option.bind_some, line]
  rfl

/-- A direct line that leaves no jump comes to an end, and after it only the console changes. -/
theorem exists_settle_direct {statement : List Code} {steps : Nat}
    (direct : machine.phase = .direct statement)
    (keeps : ∀ command ∈ machine.asked, ¬command.Forgets)
    (stays : (carryOut (.ofBytes statement 0) machine).2.jump = none)
    (ended : (machine.settle steps).phase = .editing) :
    ∃ outcome console, machine.endsWith? steps = some outcome ∧
      machine.settle steps =
        conclude false outcome { (carryOut (.ofBytes statement 0) machine).2 with console } := by
  have work := atWork_direct direct keeps
  cases steps with
  | zero => cases direct.symm.trans ended
  | succ steps =>
      rw [settle_of_busy fun editing => by cases direct.symm.trans editing] at ended ⊢
      have advances : machine.advance =
          proceed false (carryOut (.ofBytes statement 0) machine) := by
        rw [advance, direct]
      rcases carried : carryOut (.ofBytes statement 0) machine with ⟨fault | _, carrier⟩
      all_goals rw [carried] at work stays advances
      · have ends : machine.ending? = some (.error fault) := by
          rw [ending?, direct]
          dsimp only
          rw [carried]
        refine ⟨.error fault, carrier.console, endsWith?_of_ending? ends steps, ?_⟩
        rw [advances]
        exact settle_of_editing (phase_conclude _ _ _) steps
      · rcases work.phase (fun running => by cases direct.symm.trans running)
          with same | ⟨deadline, sounding, pauses⟩
        · have ends : machine.ending? = some (.ok ()) := by
            rw [ending?, direct]
            dsimp only
            rw [carried]
            dsimp only
            rw [same, direct]
          have done : machine.advance = carrier.conclude false (.ok ()) := by
            rw [advances, proceed, same, direct]
            exact lineDone_direct stays
          refine ⟨.ok (), carrier.console, endsWith?_of_ending? ends steps, ?_⟩
          rw [done]
          exact settle_of_editing (phase_conclude _ _ _) steps
        · have goesOn : machine.ending? = none := by
            rw [ending?, direct]
            dsimp only
            rw [carried]
            dsimp only
            rw [pauses]
          have waits : machine.advance = carrier := by
            rw [advances, proceed, pauses]
          rw [endsWith?_of_none goesOn]
          rw [waits] at ended ⊢
          exact exists_settle_pausing pauses stays ended

/-! ## Typing `CONT` then -/

/-- The machine once `CONT` was typed at it. -/
def continued (machine : Machine H) : Machine H :=
  (machine.pressAll contKeys).advance

/-- `CONT` goes on at the line of a number, or at the one that follows if it is gone, with
everything that the program can read as it is. -/
structure ContinuesAt (machine : Machine H) (number : Nat) : Prop where
  running : machine.continued.phase = .running
  upcoming : machine.continued.upcoming = machine.program.firstFrom number
  program : machine.continued.program = machine.program
  variableStore : machine.continued.variableStore = machine.variableStore
  returns : machine.continued.returns = machine.returns
  data : machine.continued.data = machine.data
  memory : machine.continued.memory = machine.memory

/-- A typed `CONT` goes on as its command says. -/
theorem exists_continued (text : machine.edit.text = []) (cursor : machine.edit.cursor = 0) :
    ∃ edit glyph console, machine.continued =
      proceed false (.ok (),
        if machine.resumeLine = 0 then
          { machine with
            edit, glyph, console, phase := .direct [StatementWord.cont.code], line := 0,
            jump := none }
        else
          { machine with
            edit, glyph, console, phase := .direct [StatementWord.cont.code], line := 0,
            jump := some machine.resumeLine }) := by
  obtain ⟨edit, glyph, console, typed⟩ := exists_pressAll_cont text cursor
  refine ⟨edit, glyph, console, ?_⟩
  rw [continued, typed]
  exact congrArg (proceed false) (carryOut_cont _)

/-- `CONT` goes on at the line that was remembered for it. -/
theorem continuesAt_resumeLine (text : machine.edit.text = []) (cursor : machine.edit.cursor = 0)
    (more : machine.resumeLine ≠ 0) : machine.ContinuesAt machine.resumeLine := by
  obtain ⟨edit, glyph, console, resumes⟩ := exists_continued text cursor
  rw [if_neg more] at resumes
  refine ⟨?_, ?_, ?_, ?_, ?_, ?_, ?_⟩
  · rw [resumes]
    rfl
  · rw [resumes]
    apply (upcoming_of_jump rfl).trans
    rw [Program.landing, if_neg more]
    rfl
  all_goals
    rw [resumes]
    rfl

/-- Where no line was remembered, `CONT` is done at once. -/
theorem phase_continued_of_zero (text : machine.edit.text = []) (cursor : machine.edit.cursor = 0)
    (none : machine.resumeLine = 0) : machine.continued.phase = .editing := by
  obtain ⟨edit, glyph, console, resumes⟩ := exists_continued text cursor
  rw [if_pos none] at resumes
  rw [resumes]
  exact (congrArg Machine.phase (lineDone_direct rfl)).trans (phase_conclude _ _ _)

/-- The line to go on at once a direct line or a run has ended: after a stop the one that follows,
and after any other fault the same one again. -/
def leftAt (machine : Machine H) (inProgram : Bool) : Except Fault Unit → Nat
  | .ok () => if inProgram then 0 else machine.resumeLine
  | .error .stopped => machine.nextLineNumber
  | .error _ => machine.line

/-- However a line ends, the edit line is empty then, and otherwise no more is changed than what
is shown and how the machine goes on. -/
theorem exists_conclude (inProgram : Bool) (outcome : Except Fault Unit) (machine : Machine H) :
    ∃ edit glyph console,
      machine.conclude inProgram outcome =
        { machine with
          edit, glyph, console, phase := .editing, jump := none,
          resumeLine := machine.leftAt inProgram outcome } ∧
      edit.text = [] ∧ edit.cursor = 0 := by
  have shown : ∃ console, machine.conclude inProgram outcome =
      refreshEdit { machine with
        console, phase := .editing, jump := none, edit := machine.edit.clear,
        resumeLine := machine.leftAt inProgram outcome } := by
    rcases outcome with fault | _
    · cases fault <;> exact ⟨_, rfl⟩
    · exact ⟨_, rfl⟩
  obtain ⟨console, shown⟩ := shown
  obtain ⟨edit, glyph, codes, refreshed, text, cursor⟩ := exists_refreshEdit
    { machine with
      console, phase := .editing, jump := none, edit := machine.edit.clear,
      resumeLine := machine.leftAt inProgram outcome }
  exact ⟨edit, glyph, _, shown.trans refreshed, text, cursor⟩

/-- The line that a direct line leaves to go on at: the same as before, or none if it failed. -/
def leftBy (resumeLine : Nat) : Except Fault Unit → Nat
  | .ok () => resumeLine
  | .error _ => 0

/-- A direct line that ended leaves the edit line empty, and a line to go on at if it ended well. -/
theorem conclude_direct (outcome : Except Fault Unit) (direct : machine.line = 0) :
    (machine.conclude false outcome).edit.text = [] ∧
      (machine.conclude false outcome).edit.cursor = 0 ∧
      (machine.conclude false outcome).variableStore = machine.variableStore ∧
      (machine.conclude false outcome).resumeLine = leftBy machine.resumeLine outcome := by
  obtain ⟨edit, glyph, console, concluded, text, cursor⟩ := exists_conclude false outcome machine
  rw [concluded]
  refine ⟨text, cursor, rfl, ?_⟩
  rcases outcome with fault | _
  · cases fault with
    | stopped => exact if_pos direct
    | _ => exact direct
  · rfl

/-! ## The line that is left -/

/-- Enter sets out for a direct line with the line to go on at as it was. -/
theorem press_enter_direct {statement : List Code} (editing : machine.phase = .editing)
    (entered : (machine.press .enter).2.phase = .direct statement) :
    (machine.press .enter).2.line = 0 ∧
      (machine.press .enter).2.resumeLine = machine.resumeLine := by
  obtain ⟨-, -, -, ⟨same, -⟩ | ⟨-, line⟩⟩ := machine.press_eq .enter
  · cases entered.symm.trans (same.trans editing)
  · refine ⟨line, ?_⟩
    have submitted := machine.submitted
    generalize machine.press .enter = answer at submitted ⊢
    cases submitted with
    | blank =>
        obtain ⟨edit, glyph, console, blank, -⟩ := machine.exists_submitBlank
        rw [blank]
    | refused | direct | full | stored => rfl

/--
After a direct line `CONT` goes on where it would have gone on before, exactly if the line ended
well.

Let a machine that is editing have a line left to go on at, and let a direct line be entered that
leaves no jump and does not run, clear or load anything. Once it has come to an end, by what
carrying it out comes to or by a break while it takes its time, a `CONT` that is typed goes on at
the line that was left, with the variables as the direct line left them, if and only if that end
was not a fault.
-/
theorem continuesAt_iff {statement : List Code} {steps : Nat}
    (editing : machine.phase = .editing) (left : machine.resumeLine ≠ 0)
    (direct : (machine.press .enter).2.phase = .direct statement)
    (keeps : ∀ command ∈ (machine.press .enter).2.asked, ¬command.Forgets)
    (stays : (carryOut (.ofBytes statement 0) (machine.press .enter).2).2.jump = none)
    (ended : (machine.type steps .enter).2.phase = .editing) :
    let entered := (machine.press .enter).2
    let settled := (machine.type steps .enter).2
    ∃ outcome,
      entered.endsWith? steps = some outcome ∧
      (∃ before : Machine H, settled = before.conclude false outcome) ∧
      settled.variableStore = (carryOut (.ofBytes statement 0) entered).2.variableStore ∧
      (settled.ContinuesAt machine.resumeLine ↔ outcome = .ok ()) := by
  intro entered settled
  obtain ⟨line, resumeLine⟩ := press_enter_direct editing direct
  have work := atWork_direct direct keeps
  obtain ⟨outcome, console, ends, settles⟩ := exists_settle_direct direct keeps stays ended
  obtain ⟨text, cursor, variableStore, remembered⟩ := conclude_direct outcome
    (show ({ (carryOut (.ofBytes statement 0) entered).2 with console } : Machine H).line = 0 from
      work.line.trans line)
  rw [← settles] at text cursor variableStore remembered
  refine ⟨outcome, ends, ⟨_, settles⟩, variableStore, ?_⟩
  change settled.resumeLine = leftBy (carryOut (.ofBytes statement 0) entered).2.resumeLine outcome
    at remembered
  rw [work.resumeLine, resumeLine] at remembered
  rcases outcome with fault | _
  · refine iff_of_false (fun continues => ?_) nofun
    cases continues.running.symm.trans (phase_continued_of_zero text cursor remembered)
  · refine iff_of_true ?_ rfl
    rw [← show settled.resumeLine = machine.resumeLine from remembered]
    refine continuesAt_resumeLine text cursor ?_
    rw [show settled.resumeLine = machine.resumeLine from remembered]
    exact left

/-- A machine whose program stopped in front of line 20, with a text in its edit line. -/
def stoppedAtTwenty (text : String) : Machine NoConsole :=
  { start {} NoConsole.mk with
    program := ⟨Program.packLines [Line.ofText "10 STOP", Line.ofText "20 PRINT 1"] ++
      Program.terminator, 256⟩
    resumeLine := 20
    edit := EditLine.empty.setText (Code.encode text) }

/-- `PRINT 1` leaves the line to go on at, and `PRINT 1/0` leaves none. -/
theorem continuesAt_iff_stoppedAtTwenty :
    ((stoppedAtTwenty "PRINT 1").type 1 .enter).2.ContinuesAt 20 ∧
      ¬((stoppedAtTwenty "PRINT 1/0").type 1 .enter).2.ContinuesAt 20 := by
  have plain : ((stoppedAtTwenty "PRINT 1").press .enter).2.asked = none := by decide +kernel
  have faulty : ((stoppedAtTwenty "PRINT 1/0").press .enter).2.asked = none := by decide +kernel
  have wellEnds : ((stoppedAtTwenty "PRINT 1").press .enter).2.endsWith? 1 = some (.ok ()) := by
    decide +kernel
  have failing : ((stoppedAtTwenty "PRINT 1/0").press .enter).2.endsWith? 1 =
      some (.error .arithmeticOverflow) := by
    decide +kernel
  obtain ⟨outcome, ends, -, -, keeps⟩ :=
    @continuesAt_iff _ (stoppedAtTwenty "PRINT 1") _ [StatementWord.print.code, Code.zero + 1] 1
      rfl (by decide) (by decide +kernel) (by rw [plain]; nofun) (by decide +kernel)
      (by decide +kernel)
  obtain ⟨other, fails, -, -, loses⟩ :=
    @continuesAt_iff _ (stoppedAtTwenty "PRINT 1/0") _
      [StatementWord.print.code, Code.zero + 1, Code.slash, Code.zero] 1
      rfl (by decide) (by decide +kernel) (by rw [faulty]; nofun) (by decide +kernel)
      (by decide +kernel)
  obtain rfl := Option.some.inj (wellEnds.symm.trans ends)
  obtain rfl := Option.some.inj (failing.symm.trans fails)
  exact ⟨keeps.mpr rfl, fun continues => nomatch loses.mp continues⟩

end Machine
end HomeBasic
