import HomeBasic.Proofs.Machine.Course

/-!
# Runs follow their trail

A run of a program that stays as it is goes by the numbers of its lines alone. It goes on
with the line behind the one that was carried out, or with the first one from the target of
a jump, and it ends well when there is none. A `RETURN` goes on behind the line of the call
that is outstanding, and a `NEXT` behind the line that armed its loop.

Main statement: `Course.follows_trail`.
-/

namespace HomeBasic
namespace Machine

variable {H : Type} [Console H] {machine changed carrier after : Machine H} {program : Program}
  {trail : List Visit} {lines : List Line} {place : Nat → Prop} {last : Nat}

/-! ## Going on and ending -/

/-- A machine goes on with the least of the lines in a place. It ends the run well, with a
report of the last line, exactly if there is none. -/
structure GoesOn (lines : List Line) (last : Nat) (place : Nat → Prop) (machine : Machine H) :
    Prop where
  running : machine.phase = .running
  next : ∀ line ∈ lines,
    IsLeast {number | place number ∧ number ∈ lines.map (·.number)} line.number →
      ∃ turn offset rest, machine.turn? = some turn ∧ turn.inProgram = true ∧
        turn.machine.line = line.number ∧
        turn.scanner = .ofBytes machine.program.bytes offset ∧
        machine.program.bytes.drop offset = line.body ++ Code.newline :: rest
  ended_iff : machine.turn? = none ↔ ∀ line ∈ lines, ¬place line.number
  ends : machine.turn? = none →
    machine.advance = conclude true (.ok ()) { machine with jump := none } ∧
      machine.advance.phase = .editing ∧
      ∃ codes, machine.advance.console =
        Console.showEditLine codes (Console.showReport (reportText '0' last) machine.console)

/-- A run is ended by a fault. -/
def Fails (machine : Machine H) : Prop :=
  ∃ fault before, machine = conclude true (.error fault) before

/-- A run is ended by the break key. -/
def Broken (machine : Machine H) : Prop :=
  ∃ before, machine = conclude true (.error .stopped) before

omit [Console H] in
theorem turn?_eq_none_iff (running : machine.phase = .running) :
    machine.turn? = none ↔ machine.upcoming = 0 := by
  rw [turn?, running]
  dsimp only
  split
  next none => exact ⟨fun _ => none, fun _ => rfl⟩
  next more =>
    exact ⟨fun absent => absurd absent (Option.some_ne_none _), fun none => absurd none more⟩

/-- What a run goes on with is a matter of the number from which on it looks. -/
theorem goesOn_of_upcoming (holds : machine.program.Holds lines)
    (running : machine.phase = .running) (here : machine.line = last) (start : Nat)
    (places : ∀ line ∈ lines, place line.number ↔ start ≤ line.number)
    (upcoming : machine.upcoming = machine.program.firstFrom start) :
    machine.GoesOn lines last place where
  running := running
  next line member least := by
    obtain ⟨⟨inPlace, -⟩, lowest⟩ := least
    have reached : machine.upcoming = line.number := by
      rw [upcoming]
      refine holds.firstFrom_of_least member fun other among => ⟨fun high => ?_, fun high => ?_⟩
      · exact lowest ⟨(places other among).mpr high, List.mem_map_of_mem among⟩
      · exact Nat.le_trans ((places line member).mp inPlace) high
    have some : machine.upcoming ≠ 0 := by
      rw [reached]
      exact Nat.ne_of_gt (holds.ordered.numbered line member).1
    obtain ⟨rest, body⟩ := holds.drop_find_of_mem member
    rw [← reached] at body
    refine ⟨⟨true, .ofBytes machine.program.bytes ((machine.program.find machine.upcoming).1 + 2),
      { machine with jump := none, line := machine.upcoming }⟩, _, rest, ?_, rfl, reached, rfl,
      body⟩
    rw [turn?]
    split
    next phase => cases running.symm.trans phase
    next => exact if_neg some
    next other => exact absurd running other
  ended_iff := by
    rw [turn?_eq_none_iff running, upcoming, holds.firstFrom_eq_zero_iff]
    exact forall₂_congr fun line member => not_congr (places line member).symm
  ends none := by
    have ended := (turn?_eq_none_iff running).mp none
    have concluded : machine.advance =
        conclude true (.ok ()) { machine with jump := Option.none } := by
      have step : machine.advance = machine.advanceProgram := by rw [advance, running]
      rw [step, advanceProgram]
      dsimp only
      rw [if_pos ended]
    obtain ⟨edit, glyph, codes, shown, -, -⟩ := exists_refreshEdit
      { report '0' machine.line { machine with jump := Option.none } with
        resumeLine := 0
        jump := Option.none
        phase := .editing
        edit := (report '0' machine.line { machine with jump := Option.none }).edit.clear }
    have whole := concluded.trans shown
    refine ⟨concluded, ?_, codes, ?_⟩
    · rw [whole]
    · rw [whole, ← here]
      rfl

/-- A pending jump leads to the least line from its target on, and a jump to zero to none. -/
theorem goesOn_of_jump (holds : machine.program.Holds lines) (running : machine.phase = .running)
    (here : machine.line = last) {target : Nat} (jump : machine.jump = some target) :
    machine.GoesOn lines last fun number => 0 < target ∧ target ≤ number := by
  have upcoming := upcoming_of_jump jump
  rw [Program.landing] at upcoming
  split at upcoming
  next zero =>
    have high (line : Line) (member : line ∈ lines) : ¬Line.maxNumber + 1 ≤ line.number :=
      Nat.not_le.mpr (Nat.lt_succ_of_le (holds.ordered.numbered line member).2)
    refine goesOn_of_upcoming holds running here (Line.maxNumber + 1) ?_ ?_
    · exact fun line member => ⟨fun reached => absurd zero (Nat.ne_of_gt reached.1),
        fun above => absurd above (high line member)⟩
    · rw [upcoming, (holds.firstFrom_eq_zero_iff _).mpr high]
  next some =>
    exact goesOn_of_upcoming holds running here target
      (fun line _ => and_iff_right (Nat.pos_of_ne_zero some)) upcoming

/-- A jump that was kept for the line behind another leads to the least line behind that one. -/
theorem goesOn_of_behind (holds : machine.program.Holds lines) (running : machine.phase = .running)
    (here : machine.line = last) {line : Nat} (positive : 0 < line)
    (numbered : line ≤ Line.maxNumber)
    (jump : machine.jump = some (machine.program.behind line)) :
    machine.GoesOn lines last (line < ·) :=
  goesOn_of_upcoming holds running here (Line.numberAfter line)
    (fun _ _ => (Line.numberAfter_le_iff numbered).symm)
    ((upcoming_of_jump jump).trans (Program.landing_behind positive))

/-- Without a jump the least line behind the one being carried out is next. -/
theorem goesOn_of_none (holds : machine.program.Holds lines) (running : machine.phase = .running)
    (here : machine.line = last) (positive : 0 < last) (numbered : last ≤ Line.maxNumber)
    (jump : machine.jump = none) : machine.GoesOn lines last (last < ·) := by
  refine goesOn_of_upcoming holds running here (Line.numberAfter last)
    (fun _ _ => (Line.numberAfter_le_iff numbered).symm) ?_
  rw [upcoming_of_none jump, nextLineNumber, here, if_neg (Nat.ne_of_gt positive)]

/-! ## Lines that end a run -/

/-- A line of the program is being carried out, or has not come to its end. -/
def InLine (machine : Machine H) : Prop :=
  (∃ turn, machine.turn? = some turn ∧ turn.inProgram = true) ∨
    (∃ target, machine.phase = .entering target) ∨
    ∃ deadline sounding, machine.phase = .pausing deadline sounding true

/-- If a machine is editing after some step, that ended a run by a fault. -/
def EndsByFault (machine : Machine H) : Prop :=
  machine.phase = .editing → machine.Fails

theorem endsByFault_conclude (fault : Fault) :
    (machine.conclude true (.error fault)).EndsByFault :=
  fun _ => ⟨fault, machine, rfl⟩

theorem endsByFault_lineDone : (machine.lineDone true).EndsByFault := by
  unfold lineDone
  dsimp only
  rw [if_pos rfl]
  split
  · exact endsByFault_conclude _
  · exact nofun

theorem endsByFault_proceed (outcome : Except Fault Unit × Machine H) :
    (proceed true outcome).EndsByFault := by
  obtain ⟨fault | _, changed⟩ := outcome
  · exact endsByFault_conclude fault
  · unfold proceed
    dsimp only
    split
    next phase => exact fun editing => by cases phase.symm.trans editing
    next phase => exact fun editing => by cases phase.symm.trans editing
    next => exact endsByFault_lineDone

theorem endsByFault_advanceEntry {target : Target} (entering : machine.phase = .entering target) :
    (machine.advanceEntry target).EndsByFault := by
  have stays {changed : Machine H} (same : changed.phase = machine.phase) :
      changed.EndsByFault :=
    fun editing => by cases (same.trans entering).symm.trans editing
  unfold advanceEntry
  dsimp only
  split
  · exact endsByFault_conclude _
  · exact endsByFault_conclude _
  · have phase := phase_takeEntry target.isText
      { machine.showEdit .letter with
        console := (Console.nextKey (machine.showEdit .letter).console).2 }
    split
    next => exact endsByFault_proceed _
    next run =>
      rw [run] at phase
      exact stays phase
    next => exact endsByFault_conclude _
  · exact stays rfl
  · exact stays rfl
  · exact stays rfl

theorem endsByFault_advancePause {deadline : Nat} {sounding : Bool}
    (pausing : machine.phase = .pausing deadline sounding true) :
    (machine.advancePause deadline sounding true).EndsByFault := by
  unfold advancePause
  dsimp only
  split
  · exact endsByFault_lineDone
  · split
    · exact endsByFault_conclude _
    · exact fun editing => by cases pausing.symm.trans editing

/-- A line of the program ends a run by a fault or not at all. -/
theorem InLine.endsByFault (inLine : machine.InLine) : machine.advance.EndsByFault := by
  rcases inLine with ⟨turn, found, inProgram⟩ | ⟨target, entering⟩ | ⟨deadline, sounding, pausing⟩
  · rw [advance_eq_proceed found, inProgram]
    exact endsByFault_proceed _
  · have step : machine.advance = machine.advanceEntry target := by rw [advance, entering]
    rw [step]
    exact endsByFault_advanceEntry entering
  · have step : machine.advance = machine.advancePause deadline sounding true := by
      rw [advance, pausing]
    rw [step]
    exact endsByFault_advancePause pausing

/-! ## Commands that jump -/

theorem conclude_eq (inProgram : Bool) (outcome : Except Fault Unit) (machine : Machine H) :
    (machine.conclude inProgram outcome).returns = machine.returns ∧
      (machine.conclude inProgram outcome).jump = none ∧
      (machine.conclude inProgram outcome).phase = .editing := by
  unfold conclude
  dsimp only
  split <;> exact ⟨rfl, rfl, rfl⟩

omit [Console H] in
theorem returns_turn {turn : Turn H} (found : machine.turn? = some turn) :
    turn.machine.returns = machine.returns := by
  obtain ⟨jump, line, same⟩ := exists_of_turn? found
  rw [same]

/-- A command is carried out by a machine that has only read it. -/
theorem exists_of_order {command : Command} (order : machine.order? = some (command, carrier)) :
    ∃ turn, machine.turn? = some turn ∧ SameCourse turn.machine carrier ∧
      (carrier.phase = .running ∨ ∃ statement, carrier.phase = .direct statement) ∧
      machine.advance = proceed turn.inProgram (perform command carrier) := by
  obtain ⟨turn, console, found, rfl, advances⟩ := exists_turn_of_order order
  exact ⟨turn, found, ⟨rfl, rfl, rfl, rfl, rfl⟩, phase_turn found, advances⟩

/-- After a command that jumps behind a line a run goes on there, unless the break key is held. -/
theorem goesOn_of_jumped {inProgram : Bool} {line target : Nat}
    (holds : after.program.Holds lines)
    (phase : after.phase = .running ∨ ∃ statement, after.phase = .direct statement)
    (jump : after.jump = some target) (behind : target = after.program.behind line)
    (positive : 0 < line) (numbered : line ≤ Line.maxNumber) :
    (proceed inProgram (.ok (), after)).Broken ∨
      (proceed inProgram (.ok (), after)).GoesOn lines after.line (line < ·) := by
  subst behind
  have goesOn (console : H) :
      GoesOn lines after.line (line < ·) { after with console, phase := .running } := by
    apply goesOn_of_behind
    · exact holds
    · rfl
    · rfl
    · exact positive
    · exact numbered
    · exact jump
  rw [proceed_eq_lineDone phase, lineDone]
  cases inProgram with
  | true =>
      rw [if_pos rfl]
      dsimp only
      split
      · exact .inl ⟨_, rfl⟩
      · exact .inr (goesOn _)
  | false =>
      have jumps : after.jump.isSome = true := by rw [jump]; rfl
      rw [if_neg (by decide), if_pos jumps]
      exact .inr (goesOn after.console)

section
variable (traced : Traced program trail carrier) (holds : program.Holds lines)
  (phase : carrier.phase = .running ∨ ∃ statement, carrier.phase = .direct statement)
include traced holds phase

/-- A `RETURN` goes on behind the line of the last call. -/
theorem goesOn_of_return {caller : Nat} {earlier : List Nat}
    (call : outstanding trail = caller :: earlier) (positive : 0 < caller) (inProgram : Bool) :
    (perform .return carrier).1 = .ok () ∧
      ((proceed inProgram (perform .return carrier)).Broken ∨
        (proceed inProgram (perform .return carrier)).GoesOn lines carrier.line (caller < ·)) := by
  obtain ⟨below, calls⟩ := traced.calls
  have numbered := traced.callers caller (by rw [call]; exact List.mem_cons_self)
  rw [call, List.map_cons, List.cons_append] at calls
  rw [perform_return_of_items calls]
  refine ⟨rfl, goesOn_of_jumped ?_ phase rfl ?_ positive numbered⟩
  · exact traced.program_eq ▸ holds
  · exact congrArg (Program.behind · caller) traced.program_eq.symm

/-- A `NEXT` that continues goes on behind the line that armed its loop. -/
theorem goesOn_of_next {name : Name} {armed : Nat} (arms : armedAt name trail = some armed)
    (positive : 0 < armed) (inProgram : Bool) :
    ∃ value limit resume,
      carrier.variableStore.get? name .numeric = some (.loop value limit resume) ∧
      (value + 1 ≤ limit → carrier.variableStore.size.Fits (value + 1) →
        (perform (.next name) carrier).1 = .ok () ∧
        ((proceed inProgram (perform (.next name) carrier)).Broken ∨
          (proceed inProgram (perform (.next name) carrier)).GoesOn lines carrier.line
            (armed < ·))) := by
  obtain ⟨resumes, numbered⟩ := traced.loops name armed arms
  obtain ⟨contents, held, resumes⟩ := Option.bind_eq_some_iff.mp resumes
  cases contents with
  | loop value limit resume =>
      cases resumes
      refine ⟨value, limit, _, held, fun continues fits => ?_⟩
      have stepped : (Variables.stepLoop name carrier.variableStore).1 =
          .ok (some (program.behind armed)) := by
        rw [Variables.stepLoop_fst held, WordSize.checked, if_pos fits]
        exact congrArg Except.ok (if_pos continues)
      have run : perform (.next name) carrier = (.ok (), goto (program.behind armed)
          { carrier with
            variableStore := (Variables.stepLoop name carrier.variableStore).2 }) := by
        rw [perform, Attempt.bind_apply, onVariables, Attempt.within_apply, stepped]
        rfl
      rw [run]
      refine ⟨rfl, goesOn_of_jumped ?_ phase rfl ?_ positive numbered⟩
      · exact traced.program_eq ▸ holds
      · exact congrArg (Program.behind · armed) traced.program_eq.symm
  | number | array | text => cases resumes

end

/-- A `GOSUB` for which there is no room does not jump, and leaves the stack as it is. -/
theorem perform_gosub_of_full (operand : Int)
    (full : machine.returns.capacity ≤ machine.returns.length) :
    perform (.gosub operand) machine =
      (.error (if 0 ≤ operand ∧ operand < 65536 then .outOfMemory else .arithmeticOverflow),
        machine) := by
  have refused : machine.returns.push machine.nextLineNumber = .error .outOfMemory := by
    rw [BoundedStack.push, BoundedStack.isFull, if_pos (decide_eq_true full)]
  rw [perform_gosub, refused, lineNumber]
  by_cases line : 0 ≤ operand ∧ operand < 65536
  · rw [if_pos line, if_pos line]
  · rw [if_neg line, if_neg line]

/--
A run follows its trail.

Let a machine go on with a program of some lines, which stays as it is. When its last line has
come to its end, it goes on with the least line behind that one, or with the least one from the
target of a jump on, if the line asked for one. It ends the run well and reports the last line
exactly if there is no such line; any other end of a run is by a fault. A `RETURN` goes on with
the least line behind the line of the last call that is outstanding, and a `NEXT` that has not
passed the limit with the least line behind the one that armed its loop last, unless the break
key is held. A `GOSUB` that finds the stack full is out of memory; it neither jumps nor changes
the stack.
-/
theorem Course.follows_trail {first : Machine H} (holds : first.program.Holds lines)
    (depth : first.returns.capacity = first.config.returnDepth)
    (numbered : first.line ≤ Line.maxNumber) (course : Course first trail machine) :
    (∀ last earlier, trail = last :: earlier → machine.phase = .running →
      (machine.jump = none → 0 < last.line →
        machine.GoesOn lines last.line (last.line < ·)) ∧
      ∀ target, machine.jump = some target →
        machine.GoesOn lines last.line fun number => 0 < target ∧ target ≤ number) ∧
    (machine.InLine → machine.advance.phase = .editing → machine.advance.Fails) ∧
    (∀ carrier caller earlier, machine.order? = some (.return, carrier) →
      outstanding trail = caller :: earlier → 0 < caller →
        (perform .return carrier).1 = .ok () ∧
          (machine.advance.Broken ∨ machine.advance.GoesOn lines carrier.line (caller < ·))) ∧
    (∀ name carrier armed, machine.order? = some (.next name, carrier) →
      armedAt name trail = some armed → 0 < armed →
        ∃ value limit resume,
          carrier.variableStore.get? name .numeric = some (.loop value limit resume) ∧
          (value + 1 ≤ limit → carrier.variableStore.size.Fits (value + 1) →
            (perform (.next name) carrier).1 = .ok () ∧
            (machine.advance.Broken ∨
              machine.advance.GoesOn lines carrier.line (armed < ·)))) ∧
    (∀ operand carrier, machine.order? = some (.gosub operand, carrier) →
      machine.config.returnDepth ≤ machine.returns.length →
        perform (.gosub operand) carrier =
          (.error (if 0 ≤ operand ∧ operand < 65536 then .outOfMemory else .arithmeticOverflow),
            carrier) ∧
        machine.advance.returns = machine.returns ∧ machine.advance.jump = none ∧
        machine.advance.phase = .editing) := by
  obtain ⟨traced, atLast⟩ := course.traced holds depth numbered
  have stored : machine.program.Holds lines := traced.program_eq ▸ holds
  have carried {command : Command} {carrier : Machine H}
      (order : machine.order? = some (command, carrier)) :
      Traced first.program trail carrier ∧ carrier.returns = machine.returns ∧
      (carrier.phase = .running ∨ ∃ statement, carrier.phase = .direct statement) ∧
      ∃ inProgram, machine.advance = proceed inProgram (perform command carrier) := by
    obtain ⟨turn, found, same, phase, advances⟩ := exists_of_order order
    refine ⟨(traced.turn holds found).sameCourse same, ?_, phase, turn.inProgram, advances⟩
    rw [same.returns]
    exact returns_turn found
  refine ⟨fun last earlier eq running => ?_, InLine.endsByFault, ?_, ?_, ?_⟩
  · have here : machine.line = last.line :=
      (atLast (fun statement direct => by cases running.symm.trans direct) last earlier eq).symm
    have small : last.line ≤ Line.maxNumber := here ▸ traced.line
    exact ⟨fun calm positive => goesOn_of_none stored running here positive small calm,
      fun target jump => goesOn_of_jump stored running here jump⟩
  · intro carrier caller earlier order call positive
    obtain ⟨tracedCarrier, -, phase, inProgram, advances⟩ := carried order
    rw [advances]
    exact goesOn_of_return tracedCarrier holds phase call positive inProgram
  · intro name carrier armed order arms positive
    obtain ⟨tracedCarrier, -, phase, inProgram, advances⟩ := carried order
    rw [advances]
    exact goesOn_of_next tracedCarrier holds phase arms positive inProgram
  · intro operand carrier order full
    obtain ⟨tracedCarrier, returns, -, inProgram, advances⟩ := carried order
    have refused : perform (.gosub operand) carrier = _ := perform_gosub_of_full operand (by
      rw [returns, traced.depth]
      exact full)
    refine ⟨refused, ?_⟩
    rw [advances, refused, ← returns]
    exact conclude_eq inProgram _ carrier

/-- A loop with a call in it. -/
def callsInLoopLines : List Line :=
  [Line.ofText "10 FOR I=1 TO 2", Line.ofText "20 GOSUB 50", Line.ofText "30 NEXT I",
    Line.ofText "40 STOP", Line.ofText "50 RETURN"]

/-- A machine that is about to run it. -/
def callsInLoop : Machine NoConsole :=
  { start {} NoConsole.mk with
    program := ⟨Program.packLines callsInLoopLines ++ Program.terminator, 256⟩
    phase := .running
    jump := some 10 }

/-- From the `RETURN` the run goes on with the line behind the call. -/
theorem Course.follows_trail_callsInLoop :
    let machine := callsInLoop.advance.advance
    (∃ carrier, machine.order? = some (.return, carrier)) ∧
      machine.advance.GoesOn callsInLoopLines 50 (20 < ·) := by
  intro machine
  have holds : callsInLoop.program.Holds callsInLoopLines :=
    ⟨rfl, ⟨by decide, by decide, by decide⟩⟩
  have first : callsInLoop.visits = [⟨10, some (.loop (Code.encode "I") 1 2)⟩] := by
    decide +kernel
  have second : callsInLoop.advance.visits = [⟨20, some (.gosub 50)⟩] := by decide +kernel
  have kept : callsInLoop.advance.program = callsInLoop.program := by decide +kernel
  have keeps : callsInLoop.advance.advance.program = callsInLoop.advance.program := by
    decide +kernel
  have course : Course callsInLoop _ machine := (Course.start.advance kept).advance keeps
  rw [first, second] at course
  have reads : machine.order?.map (fun order => (order.1, order.2.line)) = some (.return, 50) := by
    decide +kernel
  have running : machine.advance.phase = .running := by decide +kernel
  clear_value machine
  obtain ⟨⟨command, carrier⟩, order, same⟩ := Option.map_eq_some_iff.mp reads
  obtain ⟨rfl, line⟩ := Prod.mk.inj same
  obtain ⟨-, -, returns, -⟩ := course.follows_trail holds rfl (by decide)
  refine ⟨⟨carrier, order⟩, ?_⟩
  rcases (returns carrier 20 [] order rfl (by decide)).2 with ⟨before, broken⟩ | goesOn
  · rw [broken, (conclude_eq true _ before).2.2] at running
    cases running
  · exact line ▸ goesOn

end Machine
end HomeBasic
