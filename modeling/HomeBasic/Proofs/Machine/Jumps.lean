import HomeBasic.Proofs.Machine.Invariants
import HomeBasic.Proofs.Machine.Slots
import HomeBasic.Proofs.Machine.Upkeep

/-!
# Jumps that lines ask for

A line that ends well leaves a jump pending exactly if its command asks for one, and
only the commands that are about lines of the program ever do.

Main statements: the jump that a command leaves pending (`jump_perform`), and the one
that a line does (`jump_carryOut`).
-/

namespace HomeBasic

open Attempt (Sustains)

/-- What is taken off a stack was on top of it. -/
theorem BoundedStack.top?_of_pop? {α : Type} {stack rest : BoundedStack α} {item : α}
    (popped : stack.pop? = some (item, rest)) : stack.top? = some item := by
  unfold pop? at popped
  split at popped
  next => cases popped
  next items =>
    cases popped
    rw [top?, items]
    rfl

/-- A command is about lines of the program, and may ask for a jump. -/
def Command.Jumps : Command → Prop
  | .run _ | .new | .load _ | .cont | .goto _ | .gosub _ | .return | .next _ => True
  | _ => False

namespace Machine

variable {H : Type} {machine : Machine H}

/-- The jump that a command asks for once it ends well. -/
def jumpFor (machine : Machine H) : Command → Option Nat
  | .run start => some (max (start.getD 1).toNat 1)
  | .new | .load _ => some 0
  | .cont => if machine.resumeLine = 0 then none else some machine.resumeLine
  | .goto line | .gosub line => some line.toNat
  | .return => machine.returns.top?
  | .next name => (Variables.stepLoop name machine.variableStore).1.toOption.join
  | _ => none

/-- A step asks for no jump. -/
abbrev Jumpless {α : Type} (step : Attempt (Machine H) α) : Prop :=
  Sustains (fun machine : Machine H => machine.jump = none) step fun _ => True

section
variable {α : Type}

theorem jumpless_of_same {step : Attempt (Machine H) α}
    (same : ∀ machine, (step machine).2.jump = machine.jump) : Jumpless step :=
  Attempt.sustains_of_kept fun machine calm => (same machine).trans calm

theorem Jumpless.jump_eq_none {step : Attempt (Machine H) α} (jumpless : Jumpless step)
    (calm : machine.jump = none) {value : α} {after : Machine H}
    (run : step machine = (.ok value, after)) : after.jump = none := by
  have kept := jumpless.kept calm
  rw [run] at kept
  exact kept

theorem jumpless_ofExcept (result : Except Fault α) :
    Jumpless (Attempt.ofExcept result : Attempt (Machine H) α) :=
  jumpless_of_same fun _ => rfl

theorem jumpless_ignoresConsole : IgnoresConsole fun machine : Machine H => machine.jump = none :=
  fun _ _ calm => calm

theorem jumpless_ignoresVariables :
    IgnoresVariables fun machine : Machine H => machine.jump = none :=
  fun _ _ calm => calm

variable [Console H]

theorem jumpless_nextItem (turns : Nat) :
    Jumpless (nextItem turns : Attempt (Machine H) Value) := by
  induction turns with
  | zero => exact Attempt.sustains_throw _
  | succ turns inductionHypothesis =>
      refine Attempt.sustains_get.bind fun machine _ => Attempt.sustains_guard fun _ => ?_
      dsimp only
      split
      · split
        · exact (jumpless_of_same fun _ => rfl).bind fun _ _ => inductionHypothesis
        · exact (jumpless_of_same fun _ => rfl).bind fun _ _ => inductionHypothesis
      · refine (jumpless_ignoresConsole.atDesk _ _).bind fun (value, further) _ => ?_
        dsimp only
        split
        · exact (jumpless_of_same fun _ => rfl).bind fun _ _ => Attempt.sustains_pure trivial
        · exact (jumpless_of_same fun _ => rfl).bind fun _ _ => Attempt.sustains_pure trivial

/-- A load that ends well asks for the end of the run. -/
theorem jump_load {slot : Int} {after : Machine H}
    (run : load slot machine = (.ok (), after)) : after.jump = some 0 := by
  rcases load_cases slot machine with ⟨image, console, -, loads⟩ | ⟨-, fault, console, -, loads⟩
  · cases loads.symm.trans run
    rfl
  · cases loads.symm.trans run

omit [Console H] in
theorem exists_of_lineNumber {value : Int} {number : Nat} {reached : Machine H}
    (run : Attempt.ofExcept (lineNumber value) machine = (.ok number, reached)) :
    number = value.toNat ∧ reached = machine := by
  rw [Attempt.ofExcept_apply] at run
  obtain ⟨read, rfl⟩ := Prod.mk.inj run
  unfold lineNumber at read
  split at read
  · cases read
    exact ⟨rfl, rfl⟩
  · cases read

theorem jump_gosub {line : Int} {after : Machine H}
    (run : perform (.gosub line) machine = (.ok (), after)) : after.jump = some line.toNat := by
  obtain ⟨number, between, read, rest⟩ := Attempt.exists_of_bind_eq_ok run
  obtain ⟨rfl, rfl⟩ := exists_of_lineNumber read
  obtain ⟨current, _, _, rest⟩ := Attempt.exists_of_bind_eq_ok rest
  obtain ⟨returns, _, _, rest⟩ := Attempt.exists_of_bind_eq_ok rest
  cases rest
  rfl

theorem jump_return {after : Machine H} (run : perform .return machine = (.ok (), after)) :
    after.jump = machine.returns.top? := by
  obtain ⟨current, _, got, rest⟩ := Attempt.exists_of_bind_eq_ok run
  cases got
  cases popped : machine.returns.pop? with
  | none =>
      rw [popped] at rest
      cases rest
  | some top =>
      rw [popped] at rest
      cases rest
      rw [BoundedStack.top?_of_pop? popped]
      rfl

/-- The end of a loop asks for a jump exactly if the loop goes on. -/
theorem jump_next {name : Name} {after : Machine H} (calm : machine.jump = none)
    (run : perform (.next name) machine = (.ok (), after)) :
    after.jump = machine.jumpFor (.next name) := by
  obtain ⟨resume, between, stepped, rest⟩ := Attempt.exists_of_bind_eq_ok run
  rw [onVariables, Attempt.within_apply] at stepped
  obtain ⟨result, rfl⟩ := Prod.mk.inj stepped
  rw [jumpFor, result]
  cases resume with
  | none =>
      cases rest
      exact calm
  | some line =>
      cases rest
      rfl

/-- A command that is not about lines of the program asks for no jump. -/
theorem jumpless_perform {command : Command} (stays : ¬command.Jumps) :
    Jumpless (perform command : Attempt (Machine H) Unit) := by
  cases command with
  | run _ | new | load _ | cont | goto _ | gosub _ | «return» | next _ =>
      exact absurd trivial stays
  | stop => exact Attempt.sustains_throw _
  | list start => exact (jumpless_ofExcept _).bind fun _ _ => jumpless_ignoresConsole.list _
  | save slot => exact jumpless_ignoresConsole.save slot
  | assign target value => exact jumpless_ignoresVariables.assign target value
  | input target =>
      exact Attempt.sustains_get.bind fun _ calm => Attempt.sustains_guard fun _ =>
        Attempt.sustains_set calm
  | loop name start limit =>
      exact (jumpless_ignoresVariables.onVariables _).bind fun _ _ =>
        Attempt.sustains_get.bind fun _ _ => jumpless_ignoresVariables.onVariables _
  | dimension name maxIndex => exact jumpless_ignoresVariables.onVariables _
  | read target =>
      exact Attempt.sustains_get.bind fun _ _ => (jumpless_nextItem _).bind fun _ _ =>
        Attempt.sustains_guard fun _ => jumpless_ignoresVariables.assign target _
  | restore line =>
      exact (jumpless_ofExcept _).bind fun _ _ => Attempt.sustains_modify fun _ calm => calm
  | poke address value =>
      exact Attempt.sustains_get.bind fun _ calm => Attempt.sustains_guard fun _ =>
        Attempt.sustains_guard fun _ => Attempt.sustains_set calm
  | beep _ _ | wait _ =>
      rw [perform]
      split
      · exact Attempt.sustains_throw _
      · exact jumpless_of_same fun _ => rfl
  | clear | cls => exact jumpless_of_same fun _ => rfl

/-- What a command that ends well leaves pending is the jump that it asks for. -/
theorem jump_perform {command : Command} {after : Machine H} (calm : machine.jump = none)
    (run : perform command machine = (.ok (), after)) :
    after.jump = machine.jumpFor command := by
  cases command with
  | run start | goto line =>
      rw [perform] at run
      obtain ⟨number, between, read, rest⟩ := Attempt.exists_of_bind_eq_ok run
      obtain ⟨rfl, rfl⟩ := exists_of_lineNumber read
      cases rest
      rfl
  | new =>
      cases run
      rfl
  | cont =>
      cases run
      rw [jumpFor]
      dsimp only
      split
      · exact calm
      · rfl
  | load slot => exact jump_load run
  | gosub line => exact jump_gosub run
  | «return» => exact jump_return run
  | next name => exact jump_next calm run
  | list _ | clear | save _ | assign _ _ | input _ | loop _ _ _ | stop | dimension _ _ | read _
  | restore _ | poke _ _ | wait _ | beep _ _ | cls =>
      refine (jumpless_perform ?_).jump_eq_none calm run
      exact not_false

/-- The jump that a line asks for once it ends well. -/
def Turn.jump? (turn : Turn H) : Option Nat :=
  match (atDesk turn.scanner (Statement.line · .execute) turn.machine).1 with
  | .ok (some command) => turn.machine.jumpFor command
  | _ => none

/-- What a line that ends well leaves pending is the jump that it asks for. -/
theorem jump_carryOut {turn : Turn H} {after : Machine H} (calm : turn.machine.jump = none)
    (run : carryOut turn.scanner turn.machine = (.ok (), after)) : after.jump = turn.jump? := by
  obtain ⟨found, between, read, rest⟩ := Attempt.exists_of_bind_eq_ok run
  rw [Turn.jump?, read]
  rw [atDesk_apply] at read
  obtain ⟨_, rfl⟩ := Prod.mk.inj read
  cases found with
  | none =>
      cases rest
      exact calm
  | some command =>
      refine (jump_perform ?_ rest).trans rfl
      exact calm

end

end Machine
end HomeBasic
