import HomeBasic.Proofs.Console.Kindred
import HomeBasic.Proofs.Machine.Entering

/-!
# Commands at kindred consoles

Two machines are kin when they differ in their consoles alone, and these belong together
(`Kin`). If the consoles are kindred, a command comes to the same at both, be it a value or a
fault, and the machines are kin again: a step either does not ask for anything of the console,
or asks for the same on both sides and gets the same answer.

Main statement: this is so for every line that is carried out (`mirrored_carryOut`).
-/

namespace HomeBasic

open Attempt (Mirrored mirrored_guard mirrored_ofExcept mirrored_pure mirrored_throw
  mirrored_when)

namespace Machine

/-- Two machines that differ in their consoles alone, and these belong together. -/
def Kin {H K : Type} (meet : H → K → Prop) (machine : Machine H) (other : Machine K) : Prop :=
  ∃ console, other = { machine with console } ∧ meet machine.console console

variable {H K α : Type} {meet : H → K → Prop} {machine : Machine H} {other : Machine K}

/-! ## Steps of a command -/

theorem mirrored_onVariables (step : Attempt Variables α) :
    Mirrored (Kin meet) (onVariables step) (onVariables step) (Kin meet) := by
  rintro machine _ ⟨console, rfl, meets⟩
  exact ⟨rfl, console, rfl, meets⟩

theorem mirrored_onConsole {left : Attempt H α} {right : Attempt K α}
    (mirrored : Mirrored meet left right meet) :
    Mirrored (Kin meet) (onConsole left) (onConsole right) (Kin meet) := by
  rintro machine _ ⟨console, rfl, meets⟩
  obtain ⟨same, meets⟩ := mirrored machine.console console meets
  exact ⟨same, _, rfl, meets⟩

theorem mirrored_tellConsole {change : H → H} {others : K → K}
    (keeps : ∀ console other, meet console other → meet (change console) (others other)) :
    Mirrored (Kin meet) (tellConsole change) (tellConsole others) (Kin meet) := by
  rintro machine _ ⟨console, rfl, meets⟩
  exact ⟨rfl, _, rfl, keeps machine.console console meets⟩

/-- A change that does the same to machines that are kin. -/
theorem mirrored_modify {change : Machine H → Machine H} {others : Machine K → Machine K}
    (keeps : ∀ machine console, meet machine.console console →
      Kin meet (change machine) (others { machine with console })) :
    Mirrored (Kin meet) (modify change) (modify others) (Kin meet) := by
  rintro machine _ ⟨console, rfl, meets⟩
  exact ⟨rfl, keeps machine console meets⟩

/-- What follows may depend on the machine, but for its console. -/
theorem mirrored_get {onLeft : Machine H → Attempt (Machine H) α}
    {onRight : Machine K → Attempt (Machine K) α}
    (rest : ∀ machine console, meet machine.console console →
      Mirrored (Kin meet) (onLeft machine) (onRight { machine with console }) (Kin meet)) :
    Mirrored (Kin meet) (get >>= onLeft) (get >>= onRight) (Kin meet) := by
  rintro machine _ ⟨console, rfl, meets⟩
  exact rest machine console meets machine _ ⟨console, rfl, meets⟩

theorem mirrored_set (kin : Kin meet machine other) :
    Mirrored (Kin meet) (set machine) (set other) (Kin meet) :=
  fun _ _ _ => ⟨rfl, kin⟩

theorem mirrored_assign (target : Target) (value : Value) :
    Mirrored (Kin meet) (assign target value : Attempt (Machine H) Unit)
      (assign target value : Attempt (Machine K) Unit) (Kin meet) := by
  unfold assign
  split
  · exact mirrored_onVariables _
  · exact mirrored_onVariables _
  · exact mirrored_onVariables _
  · exact mirrored_throw _

theorem mirrored_atDesk (scanner : Scanner) {left : Environment → Attempt (Desk H) α}
    {right : Environment → Attempt (Desk K) α}
    (mirrored : ∀ environment, Mirrored (Desk.Level True meet) (left environment)
      (right environment) (Desk.Level True meet)) :
    Mirrored (Kin meet) (atDesk scanner left) (atDesk scanner right) (Kin meet) := by
  rintro machine _ ⟨console, rfl, meets⟩
  obtain ⟨same, level⟩ := mirrored machine.environment
    ⟨scanner, .empty machine.config.calculatorDepth, machine.console⟩
    ⟨scanner, .empty machine.config.calculatorDepth, console⟩
    ⟨⟨rfl, rfl, fun _ => rfl⟩, rfl, meets⟩
  exact ⟨same, _, rfl, level.console⟩

theorem mirrored_poke (address value : Int) :
    Mirrored (Kin meet) (poke address value : Attempt (Machine H) Unit)
      (poke address value : Attempt (Machine K) Unit) (Kin meet) := by
  refine mirrored_get fun machine console meets => ?_
  dsimp only
  refine mirrored_guard ?_
  refine mirrored_guard ?_
  exact mirrored_set ⟨console, rfl, meets⟩

theorem mirrored_startEntry (target : Target) :
    Mirrored (Kin meet) (startEntry target : Attempt (Machine H) Unit)
      (startEntry target : Attempt (Machine K) Unit) (Kin meet) := by
  refine mirrored_get fun machine console meets => ?_
  dsimp only
  refine mirrored_guard ?_
  exact mirrored_set ⟨console, rfl, meets⟩

section
variable [Console H] [Console K] (kindred : Console.Kindred meet)
include kindred

theorem mirrored_list (start : Nat) :
    Mirrored (Kin meet) (list start : Attempt (Machine H) Unit)
      (list start : Attempt (Machine K) Unit) (Kin meet) :=
  mirrored_get fun _ _ _ => mirrored_onConsole (Printing.mirrored_listings kindred _)

theorem mirrored_readItem (program : Program) (body offset : Nat) :
    Mirrored (Kin meet) (readItem program body offset : Attempt (Machine H) _)
      (readItem program body offset : Attempt (Machine K) _) (Kin meet) := by
  refine mirrored_atDesk _ fun environment => ?_
  refine (Statement.level_expression (Statement.alike_execute kindred environment)).bind
    fun value => Desk.level_look.bind fun code => ?_
  split
  · refine Desk.level_advance.bind fun _ desk opposite level => ?_
    simp only [Attempt.bind_apply, Attempt.get_apply, Attempt.pure_apply]
    rw [level.scanner.position]
    exact ⟨rfl, level⟩
  · exact mirrored_pure _

theorem mirrored_nextItem (turns : Nat) :
    Mirrored (Kin meet) (nextItem turns : Attempt (Machine H) Value)
      (nextItem turns : Attempt (Machine K) Value) (Kin meet) := by
  induction turns with
  | zero => exact mirrored_throw _
  | succ turns inductionHypothesis =>
      unfold nextItem
      refine mirrored_get fun machine console meets => ?_
      dsimp only
      refine mirrored_guard ?_
      have moves (pointer : DataPointer) :
          Mirrored (Kin meet) (modify fun machine : Machine H => { machine with data := pointer })
            (modify fun machine : Machine K => { machine with data := pointer }) (Kin meet) :=
        mirrored_modify fun _ console meets => ⟨console, rfl, meets⟩
      cases machine.data.offset with
      | none =>
          dsimp only
          split
          · exact (moves _).bind fun _ => inductionHypothesis
          · exact (moves _).bind fun _ => inductionHypothesis
      | some offset =>
          refine (mirrored_readItem kindred _ _ _).bind fun item => ?_
          obtain ⟨value, further⟩ := item
          cases further with
          | some offset => exact (moves _).bind fun _ => mirrored_pure value
          | none => exact (moves _).bind fun _ => mirrored_pure value

theorem mirrored_read (target : Target) :
    Mirrored (Kin meet) (read target : Attempt (Machine H) Unit)
      (read target : Attempt (Machine K) Unit) (Kin meet) := by
  refine mirrored_get fun machine console _ => ?_
  refine (mirrored_nextItem kindred _).bind fun value => ?_
  dsimp only
  exact mirrored_guard (mirrored_assign target value)

/-! ## Slots -/

theorem mirrored_transferFailed (fault : SlotFault) :
    Mirrored (Kin meet) (transferFailed fault : Attempt (Machine H) α)
      (transferFailed fault : Attempt (Machine K) α) (Kin meet) :=
  (mirrored_tellConsole (kindred.notice fault.message)).bind fun _ => mirrored_throw fault.fault

theorem mirrored_slotNumber (slot : Int) :
    Mirrored (Kin meet) (slotNumber slot : Attempt (Machine H) Nat)
      (slotNumber slot : Attempt (Machine K) Nat) (Kin meet) := by
  refine mirrored_get fun machine console meets => ?_
  rw [kindred.slotCount _ _ meets]
  split
  · exact mirrored_pure _
  · exact mirrored_throw _

theorem mirrored_save (slot : Int) :
    Mirrored (Kin meet) (save slot : Attempt (Machine H) Unit)
      (save slot : Attempt (Machine K) Unit) (Kin meet) := by
  refine (mirrored_slotNumber kindred slot).bind fun slot => ?_
  refine mirrored_get fun machine console meets => ?_
  have persists := mirrored_onConsole <| Attempt.mirrored_ofUpdate
    (kindred.persist slot (Image.encode machine.config ⟨machine.program, machine.variableStore⟩))
  dsimp only
  refine mirrored_when (mirrored_transferFailed kindred _) (persists.bind fun result => ?_)
  cases result with
  | ok => exact mirrored_pure ()
  | error fault => exact mirrored_transferFailed kindred fault

theorem mirrored_fetchBlock (slot : Nat) :
    Mirrored (Kin meet) (fetchBlock slot : Attempt (Machine H) _)
      (fetchBlock slot : Attempt (Machine K) _) (Kin meet) := by
  unfold fetchBlock
  split
  · exact mirrored_get fun _ _ _ => mirrored_pure _
  · exact mirrored_onConsole (Attempt.mirrored_ofUpdate (kindred.read slot))

theorem mirrored_load (slot : Int) :
    Mirrored (Kin meet) (load slot : Attempt (Machine H) Unit)
      (load slot : Attempt (Machine K) Unit) (Kin meet) := by
  refine (mirrored_slotNumber kindred slot).bind fun slot => ?_
  refine (mirrored_fetchBlock kindred slot).bind fun block => ?_
  refine mirrored_get fun machine console meets => ?_
  dsimp only
  split
  · exact mirrored_transferFailed kindred _
  · exact mirrored_set ⟨console, rfl, meets⟩

/-! ## All commands -/

theorem mirrored_startPause (duration : Int) (sounding : Bool) :
    Mirrored (Kin meet) (startPause duration sounding : Attempt (Machine H) Unit)
      (startPause duration sounding : Attempt (Machine K) Unit) (Kin meet) := by
  refine mirrored_modify fun machine console meets => ?_
  dsimp only
  rw [kindred.clock _ _ meets]
  exact ⟨console, rfl, meets⟩

theorem mirrored_perform (command : Command) :
    Mirrored (Kin meet) (perform command : Attempt (Machine H) Unit)
      (perform command : Attempt (Machine K) Unit) (Kin meet) := by
  have jumps (line : Nat) : Mirrored (Kin meet) (modify (goto line) : Attempt (Machine H) _)
      (modify (goto line) : Attempt (Machine K) _) (Kin meet) :=
    mirrored_modify fun _ console meets => ⟨console, rfl, meets⟩
  cases command with
  | list start => exact (mirrored_ofExcept _).bind fun line => mirrored_list kindred line
  | run start =>
      exact (mirrored_ofExcept _).bind fun _ =>
        mirrored_modify fun _ console meets => ⟨console, rfl, meets⟩
  | new | clear => exact mirrored_modify fun _ console meets => ⟨console, rfl, meets⟩
  | cont =>
      refine mirrored_modify fun machine console meets => ?_
      dsimp only
      split
      · exact ⟨console, rfl, meets⟩
      · exact ⟨console, rfl, meets⟩
  | save slot => exact mirrored_save kindred slot
  | load slot => exact mirrored_load kindred slot
  | assign target value => exact mirrored_assign target value
  | input target => exact mirrored_startEntry target
  | goto line => exact (mirrored_ofExcept _).bind jumps
  | gosub line =>
      refine (mirrored_ofExcept _).bind fun line => mirrored_get fun machine console meets => ?_
      exact (mirrored_ofExcept _).bind fun returns => mirrored_set ⟨console, rfl, meets⟩
  | «return» =>
      refine mirrored_get fun machine console meets => ?_
      dsimp only
      split
      · exact mirrored_set ⟨console, rfl, meets⟩
      · exact mirrored_throw _
  | loop name start limit =>
      exact (mirrored_onVariables _).bind fun _ =>
        mirrored_get fun machine console _ => mirrored_onVariables _
  | next name =>
      refine (mirrored_onVariables _).bind fun target => ?_
      cases target with
      | some line => exact jumps line
      | none => exact mirrored_pure ()
  | stop => exact mirrored_throw _
  | dimension name maxIndex => exact mirrored_onVariables _
  | read target => exact mirrored_read kindred target
  | restore line =>
      exact (mirrored_ofExcept _).bind fun _ =>
        mirrored_modify fun _ console meets => ⟨console, rfl, meets⟩
  | poke address value => exact mirrored_poke address value
  | wait duration =>
      rw [perform, perform]
      split
      · exact mirrored_throw _
      · exact mirrored_startPause kindred duration false
  | beep duration pitch =>
      rw [perform, perform]
      split
      · exact mirrored_throw _
      · exact (mirrored_tellConsole (kindred.startTone pitch)).bind fun _ =>
          mirrored_startPause kindred duration true
  | cls => exact mirrored_tellConsole kindred.clear

theorem mirrored_carryOut (scanner : Scanner) :
    Mirrored (Kin meet) (carryOut scanner : Attempt (Machine H) Unit)
      (carryOut scanner : Attempt (Machine K) Unit) (Kin meet) := by
  refine (mirrored_atDesk scanner fun environment =>
    Statement.level_line (Statement.alike_execute kindred environment)).bind fun command => ?_
  cases command with
  | some command => exact mirrored_perform kindred command
  | none => exact mirrored_pure ()

end

end Machine
end HomeBasic
