import HomeBasic.Proofs.Machine.Calls
import HomeBasic.Proofs.Machine.Resumption
import HomeBasic.Proofs.Program.Items

/-!
# The trail of a run

The trail of a machine is an abstract account of its run: the lines that were carried out,
each with its command if that ended well. From it follow the calls that are outstanding and
the lines at which loops were armed. The machine itself keeps no such lines. It keeps the
numbers of the lines behind them, and zero where there is none.

Main statement: however a machine goes on while its program stays as it is, its stack and
its loops are those of the trail (`Course.traced`).
-/

namespace HomeBasic

/-- The lines behind a line are those from the number after it on. -/
theorem Line.numberAfter_le_iff {number other : Nat} (numbered : number ≤ Line.maxNumber) :
    Line.numberAfter number ≤ other ↔ number < other := by
  have after : Line.numberAfter number = number + 1 :=
    Nat.mod_eq_of_lt (by simp only [Line.maxNumber] at numbered; omega)
  rw [after]
  exact Iff.rfl

namespace Program

/-- The number of the line behind a line, zero if there is none or if it is no line. -/
def behind (program : Program) (line : Nat) : Nat :=
  if line = 0 then 0 else program.firstFrom (Line.numberAfter line)

variable {program : Program} {lines : List Line} {line : Line}

namespace Holds

/-- The first line from a number on is the least of those that are stored. -/
theorem firstFrom_eq (holds : program.Holds lines) (number : Nat) :
    program.firstFrom number =
      ((lines.find? (number ≤ ·.number)).map (·.number)).getD 0 := by
  rw [firstFrom, numberAt, holds.drop_find, ← List.append_assoc, ← packLines_append,
    holds.ordered.numberedBy_append_above, ← List.head?_filter]
  have ordered := holds.ordered.filter (number ≤ ·.number)
  cases onward : lines.filter (number ≤ ·.number) with
  | nil => rfl
  | cons line rest =>
      rw [onward] at ordered
      exact headNumber_packLines ordered _

theorem firstFrom_of_least (holds : program.Holds lines) {number : Nat} (member : line ∈ lines)
    (least : ∀ other ∈ lines, number ≤ other.number ↔ line.number ≤ other.number) :
    program.firstFrom number = line.number := by
  have same : lines.filter (number ≤ ·.number) = lines.filter (line.number ≤ ·.number) :=
    List.filter_congr fun other among => decide_eq_decide.mpr (least other among)
  rw [holds.firstFrom_eq, ← List.head?_filter, same, List.head?_filter,
    holds.ordered.find?_of_mem member]
  rfl

theorem firstFrom_eq_zero_iff (holds : program.Holds lines) (number : Nat) :
    program.firstFrom number = 0 ↔ ∀ line ∈ lines, ¬number ≤ line.number := by
  rw [holds.firstFrom_eq]
  cases first : lines.find? (number ≤ ·.number) with
  | none =>
      have none := List.find?_eq_none.mp first
      exact ⟨fun _ line member => by simpa using none line member, fun _ => rfl⟩
  | some line =>
      have member := List.mem_of_find?_eq_some first
      have reached := List.find?_some first
      refine ⟨fun zero => ?_, fun none => absurd (by simpa using reached) (none line member)⟩
      exact absurd zero (Nat.ne_of_gt (holds.ordered.numbered line member).1)

theorem firstFrom_le (holds : program.Holds lines) (number : Nat) :
    program.firstFrom number ≤ Line.maxNumber := by
  rw [holds.firstFrom_eq]
  cases first : lines.find? (number ≤ ·.number) with
  | none => exact Nat.zero_le _
  | some line => exact (holds.ordered.numbered line (List.mem_of_find?_eq_some first)).2

end Holds

/-- A jump to the line behind a line leads there. -/
theorem landing_behind {line : Nat} (numbered : 0 < line) :
    program.landing (program.behind line) = program.firstFrom (Line.numberAfter line) := by
  rw [behind, if_neg (Nat.ne_of_gt numbered), landing_firstFrom]

end Program

/-! ## Trails -/

/-- A line that was carried out, with its command if it had one that ended well. -/
structure Visit where
  line : Nat
  command : Option Command
  deriving DecidableEq, Repr

namespace Visit

/-- The lines of the calls that are outstanding after a visit, the last one first. -/
def calls (visit : Visit) (before : List Nat) : List Nat :=
  match visit.command with
  | some (.gosub _) => visit.line :: before
  | some .return => before.tail
  | some (.run _) | some .new | some .clear | some (.load _) => []
  | _ => before

/-- The line at which the loop of a name was armed last, as it is after a visit. -/
def arms (name : Name) (visit : Visit) (before : Option Nat) : Option Nat :=
  match visit.command with
  | some (.loop other _ _) => if other = name then some visit.line else before
  | some (.run _) | some .new | some .clear | some (.load _) => none
  | _ => before

end Visit

/-- The calls that are outstanding after a trail, the last one first. -/
def outstanding (trail : List Visit) : List Nat :=
  trail.foldr Visit.calls []

/-- The line at which a trail armed the loop of a name last. -/
def armedAt (name : Name) (trail : List Visit) : Option Nat :=
  trail.foldr (Visit.arms name) none

namespace Machine

variable {H : Type} {machine changed carrier after : Machine H} {program : Program}
  {trail : List Visit} {lines : List Line}

/-- The stack and the loops of a machine are those of a trail; what was on the stack before
is below. -/
structure Traced (program : Program) (trail : List Visit) (machine : Machine H) : Prop where
  program_eq : machine.program = program
  depth : machine.returns.capacity = machine.config.returnDepth
  line : machine.line ≤ Line.maxNumber
  calls : ∃ below, machine.returns.items = (outstanding trail).map program.behind ++ below
  callers : ∀ caller ∈ outstanding trail, caller ≤ Line.maxNumber
  loops : ∀ name armed, armedAt name trail = some armed →
    machine.variableStore.resume? name = some (program.behind armed) ∧ armed ≤ Line.maxNumber

theorem Traced.sameCourse (traced : Traced program trail machine)
    (same : SameCourse machine changed) : Traced program trail changed where
  program_eq := same.program.trans traced.program_eq
  depth := by
    rw [same.returns, same.config]
    exact traced.depth
  line := by
    rw [same.line]
    exact traced.line
  calls := by
    rw [same.returns]
    exact traced.calls
  callers := traced.callers
  loops := by
    rw [same.loops]
    exact traced.loops

/-- A line that changes no call and no loop adds nothing to the trail but itself. -/
theorem Traced.visited (traced : Traced program trail machine) {visit : Visit}
    (calls : visit.calls (outstanding trail) = outstanding trail)
    (arms : ∀ name, visit.arms name (armedAt name trail) = armedAt name trail) :
    Traced program (visit :: trail) machine where
  program_eq := traced.program_eq
  depth := traced.depth
  line := traced.line
  calls := by
    have same : outstanding (visit :: trail) = outstanding trail := calls
    rw [same]
    exact traced.calls
  callers := by
    have same : outstanding (visit :: trail) = outstanding trail := calls
    rw [same]
    exact traced.callers
  loops name armed found := traced.loops name armed ((arms name).symm.trans found)

/-- The line behind the one being carried out follows it. -/
theorem Traced.nextLineNumber_eq (traced : Traced program trail machine) :
    machine.nextLineNumber = program.behind machine.line := by
  rw [nextLineNumber, Program.behind, traced.program_eq]

variable [Console H]

theorem Traced.gosub (traced : Traced program trail carrier) {operand : Int}
    (run : perform (.gosub operand) carrier = (.ok (), after)) (same : after.program = program) :
    Traced program (⟨carrier.line, some (.gosub operand)⟩ :: trail) after := by
  obtain ⟨items, kept, capacity⟩ := returns_gosub run
  have rest := traced.sameCourse kept
  obtain ⟨below, calls⟩ := traced.calls
  refine ⟨same, ?_, rest.line, ⟨below, ?_⟩, ?_, rest.loops⟩
  · rw [capacity]
    exact rest.depth
  · rw [items, calls, traced.nextLineNumber_eq]
    rfl
  · exact List.forall_mem_cons.mpr ⟨traced.line, traced.callers⟩

theorem Traced.return (traced : Traced program trail carrier)
    (run : perform .return carrier = (.ok (), after)) (same : after.program = program) :
    Traced program (⟨carrier.line, some .return⟩ :: trail) after := by
  obtain ⟨below, calls⟩ := traced.calls
  cases held : carrier.returns.items with
  | nil =>
      rw [perform_return_of_nil held] at run
      cases run
  | cons top others =>
      rw [perform_return_of_items held] at run
      cases run
      refine ⟨same, traced.depth, traced.line, ?_, ?_, traced.loops⟩
      · rw [held] at calls
        have fewer : outstanding (⟨carrier.line, some .return⟩ :: trail) =
            (outstanding trail).tail := rfl
        rw [fewer]
        cases callers : outstanding trail with
        -- No call of the trail is outstanding: the return is one that was there before.
        | nil => exact ⟨others, rfl⟩
        | cons caller earlier =>
            rw [callers] at calls
            exact ⟨below, (List.cons_eq_cons.mp calls).2⟩
      · exact fun caller member => traced.callers caller (List.mem_of_mem_tail member)

theorem Traced.loop (traced : Traced program trail carrier) {name : Name} {start limit : Int}
    (run : perform (.loop name start limit) carrier = (.ok (), after))
    (same : after.program = program) :
    Traced program (⟨carrier.line, some (.loop name start limit)⟩ :: trail) after := by
  obtain ⟨config, -, line, returns, loops⟩ := resume?_loop run
  refine ⟨same, ?_, ?_, ?_, traced.callers, fun other armed found => ?_⟩
  · rw [returns, config]
    exact traced.depth
  · rw [line]
    exact traced.line
  · rw [returns]
    exact traced.calls
  · rw [loops other]
    have arms : armedAt other (⟨carrier.line, some (.loop name start limit)⟩ :: trail) =
        if name = other then some carrier.line else armedAt other trail := rfl
    rw [arms] at found
    by_cases here : other = name
    · rw [if_pos here.symm] at found
      cases found
      rw [if_pos here, traced.nextLineNumber_eq]
      exact ⟨rfl, traced.line⟩
    · rw [if_neg (Ne.symm here)] at found
      rw [if_neg here]
      exact traced.loops other armed found

/-- What a command that ended well makes of stack and loops is what its visit makes of the trail. -/
theorem Traced.perform (traced : Traced program trail carrier) {command : Command}
    (run : perform command carrier = (.ok (), after)) (same : after.program = program) :
    Traced program (⟨carrier.line, some command⟩ :: trail) after := by
  by_cases keeps : command.KeepsCourse
  · have sameCourse := (sameCourse_perform keeps).sameCourse carrier
    rw [run] at sameCourse
    refine (traced.sameCourse sameCourse).visited ?_ fun name => ?_
    all_goals
      cases command with
      | run | new | clear | load | gosub | «return» | loop => exact keeps.elim
      | _ => rfl
  · cases command with
    | gosub operand => exact traced.gosub run same
    | «return» => exact traced.return run same
    | loop name start limit => exact traced.loop run same
    | run | new | clear | load =>
        obtain ⟨items, capacity, config, line⟩ := returns_of_forgets (by trivial) run
        refine ⟨same, ?_, ?_, ⟨[], items⟩, nofun, nofun⟩
        · rw [capacity, config]
          exact traced.depth
        · rw [line]
          exact traced.line
    | _ => exact absurd trivial keeps

/-! ## Courses -/

/-- The line that a turn carries out, with its command if it has one that ends well. -/
def Turn.visit (turn : Turn H) : Visit :=
  match atDesk turn.scanner (Statement.line · .execute) turn.machine with
  | (.ok (some command), carrier) =>
      match perform command carrier with
      | (.ok (), _) => ⟨turn.machine.line, some command⟩
      | (.error _, _) => ⟨turn.machine.line, none⟩
  | _ => ⟨turn.machine.line, none⟩

/-- The line that the next step carries out, if it carries out any. -/
def visits (machine : Machine H) : List Visit :=
  machine.turn?.toList.map Turn.visit

/-- A machine goes on with its program as it is, and has left a trail, the last line first. It
takes steps, and keys where it is editing; its console may change at any time. -/
inductive Course (first : Machine H) : List Visit → Machine H → Prop
  | start : Course first [] first
  | advance {trail : List Visit} {machine : Machine H} (before : Course first trail machine)
      (same : machine.advance.program = machine.program) :
      Course first (machine.visits ++ trail) machine.advance
  | press {trail : List Visit} {machine : Machine H} (before : Course first trail machine)
      (editing : machine.phase = .editing) (key : Key)
      (same : (machine.press key).2.program = machine.program) :
      Course first trail (machine.press key).2
  | retype {trail : List Visit} {machine : Machine H} (before : Course first trail machine)
      (editing : machine.phase = .editing) :
      Course first trail { machine with edit := machine.edit.clear }
  | outside {trail : List Visit} {machine : Machine H} (before : Course first trail machine)
      (console : H) : Course first trail { machine with console }

omit [Console H] in
theorem upcoming_le (holds : machine.program.Holds lines) :
    machine.upcoming ≤ Line.maxNumber := by
  unfold upcoming
  split
  · exact Nat.zero_le _
  · exact holds.firstFrom_le _
  · unfold nextLineNumber
    split
    · exact Nat.zero_le _
    · exact holds.firstFrom_le _

omit [Console H] in
/-- A turn is taken with the stack and the loops that there are. -/
theorem Traced.turn (traced : Traced program trail machine) (holds : program.Holds lines)
    {turn : Turn H} (found : machine.turn? = some turn) : Traced program trail turn.machine := by
  rcases turn?_cases found with ⟨statement, -, rfl⟩ | ⟨-, -, rfl⟩
  · exact traced
  · exact { traced with line := upcoming_le (traced.program_eq ▸ holds) }

/-- A line that is carried out is the next one of the trail. -/
theorem Traced.carryOut {turn : Turn H} (traced : Traced program trail turn.machine)
    (same : (carryOut turn.scanner turn.machine).2.program = program) :
    Traced program (turn.visit :: trail) (carryOut turn.scanner turn.machine).2 := by
  have read := SameCourse.frame.related
    (SameCourse.frame.keeps_atDesk turn.scanner (Statement.line · .execute)) turn.machine
  rw [Machine.carryOut, Attempt.bind_apply] at same ⊢
  unfold Turn.visit
  generalize atDesk turn.scanner (Statement.line · .execute) turn.machine = outcome
    at read same ⊢
  obtain ⟨fault | _ | command, carrier⟩ := outcome
  · exact (traced.sameCourse read).visited rfl fun _ => rfl
  · exact (traced.sameCourse read).visited rfl fun _ => rfl
  · have line : carrier.line = turn.machine.line := read.line
    dsimp only at same ⊢
    cases run : Machine.perform command carrier with
    | mk result after =>
        rw [run] at same
        cases result with
        | error fault =>
            exact (traced.sameCourse (read.trans (sameCourse_of_error run))).visited rfl
              fun _ => rfl
        | ok _ =>
            rw [← line]
            exact (traced.sameCourse read).perform run same

/-- A key leaves stack and loops alone; it is only for a direct line that it leaves the line. -/
theorem press_eq (machine : Machine H) (key : Key) :
    (machine.press key).2.config = machine.config ∧
      (machine.press key).2.returns = machine.returns ∧
      (machine.press key).2.variableStore = machine.variableStore ∧
      ((machine.press key).2.phase = machine.phase ∧ (machine.press key).2.line = machine.line ∨
        (∃ statement, (machine.press key).2.phase = .direct statement) ∧
          (machine.press key).2.line = 0) := by
  by_cases enter : key = .enter
  · subst enter
    have submitted := machine.submitted
    generalize machine.press .enter = answer at submitted ⊢
    cases submitted with
    | blank =>
        obtain ⟨edit, glyph, console, blank, -⟩ := machine.exists_submitBlank
        rw [blank]
        exact ⟨rfl, rfl, rfl, .inl ⟨rfl, rfl⟩⟩
    | refused | full | stored => exact ⟨rfl, rfl, rfl, .inl ⟨rfl, rfl⟩⟩
    | direct => exact ⟨rfl, rfl, rfl, .inr ⟨⟨_, rfl⟩, rfl⟩⟩
  · obtain ⟨-, edit, glyph, codes, pressed⟩ := exists_press machine enter
    rw [pressed]
    exact ⟨rfl, rfl, rfl, .inl ⟨rfl, rfl⟩⟩

theorem Traced.press (traced : Traced program trail machine) (key : Key)
    (same : (machine.press key).2.program = program) :
    Traced program trail (machine.press key).2 := by
  obtain ⟨config, returns, variableStore, line⟩ := machine.press_eq key
  refine ⟨same, ?_, ?_, ?_, traced.callers, ?_⟩
  · rw [returns, config]
    exact traced.depth
  · rcases line with ⟨-, line⟩ | ⟨-, line⟩
    · rw [line]
      exact traced.line
    · rw [line]
      exact Nat.zero_le _
  · rw [returns]
    exact traced.calls
  · rw [variableStore]
    exact traced.loops

/-- The last line of a trail is the one that the machine is at, unless a direct line is next. -/
def AtLast (trail : List Visit) (machine : Machine H) : Prop :=
  (∀ statement, machine.phase ≠ .direct statement) →
    ∀ last earlier, trail = last :: earlier → last.line = machine.line

theorem Turn.visit_line (turn : Turn H) : turn.visit.line = turn.machine.line := by
  unfold visit
  split
  · split <;> rfl
  · rfl

theorem line_carryOut (turn : Turn H) :
    (Machine.carryOut turn.scanner turn.machine).2.line = turn.machine.line := by
  have read := SameCourse.frame.related
    (SameCourse.frame.keeps_atDesk turn.scanner (Statement.line · .execute)) turn.machine
  rw [Machine.carryOut, Attempt.bind_apply]
  generalize atDesk turn.scanner (Statement.line · .execute) turn.machine = outcome at read ⊢
  obtain ⟨fault | _ | command, carrier⟩ := outcome
  · exact read.line
  · exact read.line
  · exact (line_perform command carrier).trans read.line

/-- However a machine goes on, its stack and its loops are those of its trail, and it is at the
last line of it. -/
theorem Course.traced {first : Machine H} (holds : first.program.Holds lines)
    (depth : first.returns.capacity = first.config.returnDepth)
    (numbered : first.line ≤ Line.maxNumber) (course : Course first trail machine) :
    Traced first.program trail machine ∧ AtLast trail machine := by
  induction course with
  | start => exact ⟨⟨rfl, depth, numbered, ⟨_, rfl⟩, nofun, nofun⟩, fun _ => nofun⟩
  | @advance trail machine before same inductionHypothesis =>
      obtain ⟨traced, atLast⟩ := inductionHypothesis
      cases found : machine.turn? with
      | none =>
          have none : machine.visits = [] := by rw [visits, found]; rfl
          have kept := SameCourse.frame.advance found
          rw [none, List.nil_append]
          refine ⟨traced.sameCourse kept, fun _ last earlier eq => ?_⟩
          rw [kept.line]
          refine atLast (fun statement phase => ?_) last earlier eq
          rw [turn?, phase] at found
          cases found
      | some turn =>
          have one : machine.visits = [turn.visit] := by rw [visits, found]; rfl
          have went := SameCourse.frame.proceed turn.inProgram
            (Machine.carryOut turn.scanner turn.machine)
          rw [← advance_eq_proceed found] at went
          have kept : (Machine.carryOut turn.scanner turn.machine).2.program = first.program :=
            went.program.symm.trans (same.trans traced.program_eq)
          rw [one]
          refine ⟨((traced.turn holds found).carryOut kept).sameCourse went,
            fun _ last earlier eq => ?_⟩
          obtain ⟨rfl, -⟩ := List.cons_eq_cons.mp eq
          rw [went.line, line_carryOut, turn.visit_line]
  | @press trail machine before editing key same inductionHypothesis =>
      obtain ⟨traced, atLast⟩ := inductionHypothesis
      refine ⟨traced.press key (same.trans traced.program_eq), fun indirect => ?_⟩
      obtain ⟨-, -, -, ⟨phase, line⟩ | ⟨⟨statement, direct⟩, -⟩⟩ := machine.press_eq key
      · rw [line]
        exact atLast fun statement direct => by cases editing.symm.trans direct
      · exact absurd direct (indirect statement)
  | retype before editing inductionHypothesis =>
      obtain ⟨traced, atLast⟩ := inductionHypothesis
      exact ⟨traced.sameCourse ⟨rfl, rfl, rfl, rfl, rfl⟩, atLast⟩
  | outside before console inductionHypothesis =>
      obtain ⟨traced, atLast⟩ := inductionHypothesis
      exact ⟨traced.sameCourse ⟨rfl, rfl, rfl, rfl, rfl⟩, atLast⟩

end Machine
end HomeBasic
