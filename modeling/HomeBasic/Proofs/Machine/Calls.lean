import HomeBasic.Proofs.Machine.Slots
import HomeBasic.Proofs.Machine.Untouched

/-!
# What a command does to calls and loops

The returns from subroutines and the lines at which loops resume are all that a run remembers
of where it was. Few commands change them: `GOSUB` and `RETURN` one return, `FOR` one loop,
and those that clear the variables take all of them. A command that fails changes none.

Main statements: what leaves calls and loops alone (`sameCourse_perform`,
`sameCourse_of_error`), and what the other commands make of them if they end well
(`returns_gosub`, `returns_return`, `resume?_loop`, `returns_of_forgets`).
-/

namespace HomeBasic

open Attempt (Sustains)

namespace Machine

variable {H α : Type}

/-- Two machines are at the same line of the same program, with the same calls and loops. -/
structure SameCourse (first second : Machine H) : Prop where
  config : second.config = first.config
  program : second.program = first.program
  line : second.line = first.line
  returns : second.returns = first.returns
  loops : second.variableStore.resume? = first.variableStore.resume?

variable {machine first second third : Machine H}

theorem SameCourse.refl (machine : Machine H) : SameCourse machine machine :=
  ⟨rfl, rfl, rfl, rfl, rfl⟩

theorem SameCourse.trans (step : SameCourse first second) (next : SameCourse second third) :
    SameCourse first third where
  config := next.config.trans step.config
  program := next.program.trans step.program
  line := next.line.trans step.line
  returns := next.returns.trans step.returns
  loops := next.loops.trans step.loops

/-- A step leaves calls and loops alone. -/
abbrev KeepsCourse (step : Attempt (Machine H) α) : Prop :=
  ∀ machine, Sustains (SameCourse machine) step fun _ => True

theorem KeepsCourse.sameCourse {step : Attempt (Machine H) α} (keeps : KeepsCourse step)
    (machine : Machine H) : SameCourse machine (step machine).2 :=
  (keeps machine).kept (.refl machine)

theorem SameCourse.frame : InnerFrame (SameCourse (H := H)) where
  refl := .refl
  trans := .trans
  console _ _ := ⟨rfl, rfl, rfl, rfl, rfl⟩
  memory _ _ := ⟨rfl, rfl, rfl, rfl, rfl⟩
  goto _ _ := ⟨rfl, rfl, rfl, rfl, rfl⟩
  loops _ _ same := ⟨rfl, rfl, rfl, rfl, same⟩
  entry _ _ _ := ⟨rfl, rfl, rfl, rfl, rfl⟩
  pause _ _ _ := ⟨rfl, rfl, rfl, rfl, rfl⟩
  aside kept :=
    ⟨kept.config, kept.program, kept.line, kept.returns, congrArg _ kept.variableStore⟩

variable [Console H]

/-- Most commands are about no call and no loop. -/
theorem sameCourse_perform {command : Command} (keeps : command.KeepsCourse) :
    KeepsCourse (perform command : Attempt (Machine H) Unit) :=
  SameCourse.frame.keeps_perform keeps fun _ _ _ => ⟨rfl, rfl, rfl, rfl, rfl⟩

/-! ## The others -/

variable {after : Machine H} {fault : Fault}

/-- A call keeps the line that follows, if there is room for another return. -/
theorem perform_gosub (operand : Int) (machine : Machine H) :
    perform (.gosub operand) machine =
      match lineNumber operand, machine.returns.push machine.nextLineNumber with
      | .ok line, .ok returns => (.ok (), { machine with returns }.goto line)
      | .ok _, .error fault => (.error fault, machine)
      | .error fault, _ => (.error fault, machine) := by
  rw [perform, Attempt.bind_apply, Attempt.ofExcept_apply]
  cases lineNumber operand with
  | error fault => rfl
  | ok line =>
      dsimp only
      rw [Attempt.bind_apply, Attempt.get_apply]
      dsimp only
      rw [Attempt.bind_apply, Attempt.ofExcept_apply]
      cases machine.returns.push machine.nextLineNumber <;> rfl

theorem returns_gosub {operand : Int} (run : perform (.gosub operand) machine = (.ok (), after)) :
    after.returns.items = machine.nextLineNumber :: machine.returns.items ∧
      SameCourse machine { after with returns := machine.returns } ∧
      after.returns.capacity = machine.returns.capacity := by
  rw [perform_gosub] at run
  split at run
  next line returns read pushed =>
    cases run
    obtain ⟨-, rfl⟩ := BoundedStack.push_eq_ok_iff.mp pushed
    exact ⟨rfl, ⟨rfl, rfl, rfl, rfl, rfl⟩, rfl⟩
  next => cases run
  next => cases run

/-- A return takes the top of the stack and goes there. -/
theorem perform_return_of_items {top : Nat} {others : List Nat}
    (items : machine.returns.items = top :: others) :
    perform .return machine =
      (.ok (), { machine with returns := { machine.returns with items := others } }.goto top) := by
  have popped : machine.returns.pop? = some (top, { machine.returns with items := others }) := by
    rw [BoundedStack.pop?, items]
  rw [perform, Attempt.bind_apply, Attempt.get_apply]
  dsimp only
  rw [popped]
  rfl

theorem perform_return_of_nil (items : machine.returns.items = []) :
    perform .return machine = (.error .returnWithoutGosub, machine) := by
  have popped : machine.returns.pop? = none := by rw [BoundedStack.pop?, items]
  rw [perform, Attempt.bind_apply, Attempt.get_apply]
  dsimp only
  rw [popped]
  rfl

/-- A loop that is started resumes at the line that follows. -/
theorem resume?_loop {name : Name} {start limit : Int}
    (run : perform (.loop name start limit) machine = (.ok (), after)) :
    after.config = machine.config ∧ after.program = machine.program ∧ after.line = machine.line ∧
      after.returns = machine.returns ∧
      ∀ other, after.variableStore.resume? other =
        if other = name then some machine.nextLineNumber
        else machine.variableStore.resume? other := by
  rw [perform] at run
  obtain ⟨_, assigned, first, run⟩ := Attempt.exists_of_bind_eq_ok run
  obtain ⟨current, same, got, run⟩ := Attempt.exists_of_bind_eq_ok run
  cases got
  have kept := SameCourse.frame.related
    (SameCourse.frame.keeps_onVariables (Variables.keepsLoops_assignNumber name start)) machine
  rw [first] at kept
  rw [onVariables, Attempt.within_apply] at run
  obtain ⟨result, rfl⟩ := Prod.mk.inj run
  have started := Variables.startLoop_ok (Prod.ext result rfl)
  refine ⟨kept.config, kept.program, kept.line, kept.returns, fun other => ?_⟩
  rw [started other, kept.loops, nextLineNumber, nextLineNumber, kept.line, kept.program]

/-- A command that forgets leaves no return. -/
theorem returns_of_forgets {command : Command} (forgets : command.Forgets)
    (run : perform command machine = (.ok (), after)) :
    after.returns.items = [] ∧ after.returns.capacity = machine.returns.capacity ∧
      after.config = machine.config ∧ after.line = machine.line := by
  cases command with
  | run start =>
      rw [perform] at run
      obtain ⟨number, between, read, rest⟩ := Attempt.exists_of_bind_eq_ok run
      obtain ⟨rfl, rfl⟩ := exists_of_lineNumber read
      cases rest
      exact ⟨rfl, rfl, rfl, rfl⟩
  | new | clear =>
      cases run
      exact ⟨rfl, rfl, rfl, rfl⟩
  | load slot =>
      change load slot machine = _ at run
      rcases load_cases slot machine with ⟨image, console, -, loads⟩ | ⟨-, _, console, -, loads⟩
      · cases loads.symm.trans run
        exact ⟨rfl, rfl, rfl, rfl⟩
      · cases loads.symm.trans run
  | _ => exact forgets.elim

/-- A load that fails leaves what there was. -/
theorem sameCourse_load_error {slot : Int} (run : load slot machine = (.error fault, after)) :
    SameCourse machine after := by
  rcases load_cases slot machine with ⟨image, console, -, loads⟩ | ⟨-, _, console, -, loads⟩
  · cases loads.symm.trans run
  · cases loads.symm.trans run
    exact ⟨rfl, rfl, rfl, rfl, rfl⟩

/-- A command that fails changes no call and no loop. -/
theorem sameCourse_of_error {command : Command}
    (run : perform command machine = (.error fault, after)) : SameCourse machine after := by
  by_cases keeps : command.KeepsCourse
  · have same := (sameCourse_perform keeps).sameCourse machine
    rwa [run] at same
  · cases command with
    | run start =>
        rw [perform, Attempt.bind_apply, Attempt.ofExcept_apply] at run
        cases read : lineNumber (start.getD 1) with
        | error refused =>
            rw [read] at run
            cases run
            exact .refl machine
        | ok line =>
            rw [read] at run
            cases run
    | new | clear => cases run
    | load slot => exact sameCourse_load_error run
    | gosub line =>
        rw [perform_gosub] at run
        split at run
        · cases run
        · cases run
          exact .refl machine
        · cases run
          exact .refl machine
    | «return» =>
        cases items : machine.returns.items with
        | nil =>
            rw [perform_return_of_nil items] at run
            cases run
            exact .refl machine
        | cons top others =>
            rw [perform_return_of_items items] at run
            cases run
    | loop name start limit =>
        have assigned :=
          SameCourse.frame.related (SameCourse.frame.keeps_onVariables
            (Variables.keepsLoops_assignNumber name start)) machine
        rw [perform, Attempt.bind_apply] at run
        generalize onVariables (Variables.assignNumber name start) machine = outcome
          at assigned run
        obtain ⟨refused | _, between⟩ := outcome
        · cases run
          exact assigned
        · dsimp only at run
          rw [Attempt.bind_apply, Attempt.get_apply] at run
          dsimp only at run
          rw [onVariables, Attempt.within_apply] at run
          obtain ⟨result, rfl⟩ := Prod.mk.inj run
          have kept := Variables.startLoop_error (Prod.ext result rfl)
          exact assigned.trans ⟨rfl, rfl, rfl, rfl, congrArg Variables.resume? kept⟩
    | _ => exact absurd trivial keeps

/-- A command is carried out where it is. -/
theorem line_perform (command : Command) (machine : Machine H) :
    (perform command machine).2.line = machine.line := by
  by_cases keeps : command.KeepsCourse
  · exact ((sameCourse_perform keeps).sameCourse machine).line
  · cases run : perform command machine with
    | mk result after =>
        cases result with
        | error fault => exact (sameCourse_of_error run).line
        | ok _ =>
            cases command with
            | gosub operand => exact (returns_gosub run).2.1.line
            | «return» =>
                cases items : machine.returns.items with
                | nil =>
                    rw [perform_return_of_nil items] at run
                    cases run
                | cons top others =>
                    rw [perform_return_of_items items] at run
                    cases run
                    rfl
            | loop name start limit => exact (resume?_loop run).2.2.1
            | run | new | clear | load => exact (returns_of_forgets (by trivial) run).2.2.2
            | _ => exact absurd trivial keeps

end Machine
end HomeBasic
