import HomeBasic.Proofs.Machine.Invariants
import HomeBasic.Proofs.Slot.Image
import HomeBasic.Proofs.Statement.Sound

/-!
# Sound machines

A machine is sound when its program and its variables could be saved and loaded again,
and nothing is under way that would spoil them. Every sound command leaves it sound,
whether it is carried out or fails half way.

Main statement: `upkeeps_perform`.
-/

namespace HomeBasic

open Attempt (Sustains)

/-- A command saves to no slot but some. -/
def Command.Permitted (savable : Nat → Prop) (command : Command) : Prop :=
  ∀ slot, command = .save slot → savable slot.toNat

theorem Program.numberAt_lt (program : Program) (offset : Nat) :
    program.numberAt offset < 65536 := by
  unfold numberAt headNumber
  split
  next low high _ _ =>
    have lower := low.toNat_lt
    have higher := high.toNat_lt
    omega
  next => decide

namespace Machine

variable {H : Type} [Console H] {config : Config} {savable : Nat → Prop} {holds : H → Prop}

/-- Nothing in the machine, or on its way into it, is such that it could not be saved. -/
structure Sound (config : Config) (holds : H → Prop) (machine : Machine H) : Prop where
  config_eq : machine.config = config
  program : machine.program.Sound config.programSize
  variableStore : machine.variableStore.Sound config.word config.variablesSize
  /-- A line that is typed has no end within it. -/
  oneLine : Code.newline ∉ machine.edit.text
  entry : ∀ target, machine.phase = .entering target → target.Named
  console : holds machine.console

omit [Console H] in
theorem nextLineNumber_lt (machine : Machine H) : machine.nextLineNumber < 65536 := by
  unfold nextLineNumber
  split
  · decide
  · exact machine.program.numberAt_lt _

/-- A step leaves a machine sound. -/
abbrev Upkeeps (config : Config) (holds : H → Prop) {α : Type} (step : Attempt (Machine H) α)
    (yields : α → Prop) : Prop :=
  Sustains (Sound config holds) step yields

section
variable {α : Type} {yields : α → Prop}

omit [Console H] in
theorem upkeeps_onVariables {step : Attempt Variables α}
    (sustains : Sustains (Variables.Sound config.word config.variablesSize) step yields) :
    Upkeeps config holds (onVariables step) yields :=
  Attempt.sustains_within sustains (fun _ sound => sound.variableStore)
    fun _ _ sound variableStore => { sound with variableStore }

omit [Console H] in
theorem upkeeps_onConsole {step : Attempt H α} (sustains : Sustains holds step yields) :
    Upkeeps config holds (onConsole step) yields :=
  Attempt.sustains_within sustains (fun _ sound => sound.console)
    fun _ _ sound console => { sound with console }

omit [Console H] in
theorem upkeeps_tellConsole {change : H → H}
    (kept : ∀ console, holds console → holds (change console)) :
    Upkeeps config holds (tellConsole change) fun _ => True :=
  Attempt.sustains_modify fun _ sound => { sound with console := kept _ sound.console }

omit [Console H] in
theorem upkeeps_goto (line : Nat) {machine : Machine H} (sound : machine.Sound config holds) :
    (machine.goto line).Sound config holds :=
  { sound with }

/-- The desk that a machine sets up for a scanner. -/
def desk (machine : Machine H) (scanner : Scanner) : Desk H :=
  ⟨scanner, .empty machine.config.calculatorDepth, machine.console⟩

omit [Console H] in
theorem atDesk_apply (scanner : Scanner) (step : Environment → Attempt (Desk H) α)
    (machine : Machine H) :
    atDesk scanner step machine =
      ((step machine.environment (machine.desk scanner)).1,
        { machine with
          console := (step machine.environment (machine.desk scanner)).2.console }) := rfl

omit [Console H] in
/-- What is read at a desk of a sound machine is read over sound variables. -/
theorem upkeeps_atDesk {scanner : Scanner} {step : Environment → Attempt (Desk H) α}
    (sustains : ∀ environment : Environment, environment.config = config →
      environment.variableStore.Sound config.word config.variablesSize →
      Sustains (Desk.Steady config.word holds) (step environment) yields) :
    Upkeeps config holds (atDesk scanner step) yields := by
  intro machine sound
  have steady : Desk.Steady config.word holds (machine.desk scanner) :=
    ⟨by simp [desk, BoundedStack.empty], sound.console⟩
  have reached := sustains machine.environment sound.config_eq sound.variableStore _ steady
  rw [atDesk_apply]
  generalize step machine.environment (machine.desk scanner) = outcome at reached ⊢
  rcases outcome with ⟨fault | value, desk⟩
  · exact { sound with console := reached.console }
  · exact ⟨reached.1, { sound with console := reached.2.console }⟩

end

/-! ## Commands -/

section
variable (upheld : Console.Upheld config.word savable holds)
include upheld

theorem upkeeps_list (start : Nat) :
    Upkeeps config holds (list start : Attempt (Machine H) Unit) fun _ => True :=
  Attempt.sustains_get.bind fun _ _ => upkeeps_onConsole (Printing.sustains_listings upheld _)

omit upheld [Console H] in
theorem upkeeps_assign {target : Target} {value : Value} (named : target.Named)
    (storable : value.Storable config.word) :
    Upkeeps config holds (assign target value : Attempt (Machine H) Unit) fun _ => True := by
  rcases target with name | ⟨name, index⟩ | name <;> rcases value with value | codes
  case number.number =>
    exact upkeeps_onVariables (Variables.sustains_assignNumber named storable)
  case element.number => exact upkeeps_onVariables (Variables.sustains_assignElement storable)
  case text.text => exact upkeeps_onVariables (Variables.sustains_assignText named storable)
  all_goals exact Attempt.sustains_throw _

omit upheld [Console H] in
theorem upkeeps_poke (address value : Int) :
    Upkeeps config holds (poke address value : Attempt (Machine H) Unit) fun _ => True := by
  apply Attempt.sustains_get.bind
  intro machine sound
  refine Attempt.sustains_guard fun _ => Attempt.sustains_guard fun _ => ?_
  exact Attempt.sustains_set { sound with }

theorem upkeeps_readItem (program : Program) (body offset : Nat) :
    Upkeeps config holds (readItem program body offset : Attempt (Machine H) _)
      fun item => item.1.Storable config.word := by
  refine upkeeps_atDesk fun environment same sound => ?_
  rw [← same] at sound upheld ⊢
  apply (Expression.sustains_evaluateWithin sound upheld _).bind
  intro value storable
  apply (Desk.sustains_scanned _).bind
  intro _ _
  split
  · refine (Desk.sustains_scanned _).bind fun _ _ => Attempt.sustains_get.bind fun desk _ => ?_
    exact Attempt.sustains_pure storable
  · exact Attempt.sustains_pure storable

theorem upkeeps_nextItem (turns : Nat) :
    Upkeeps config holds (nextItem turns : Attempt (Machine H) Value)
      (Value.Storable config.word) := by
  induction turns with
  | zero => exact Attempt.sustains_throw _
  | succ turns inductionHypothesis =>
      refine Attempt.sustains_get.bind fun machine _ => Attempt.sustains_guard fun _ => ?_
      dsimp only
      split
      · split
        · exact (Attempt.sustains_modify fun _ sound => { sound with }).bind
            fun _ _ => inductionHypothesis
        · exact (Attempt.sustains_modify fun _ sound => { sound with }).bind
            fun _ _ => inductionHypothesis
      · refine (upkeeps_readItem upheld _ _ _).bind fun (value, further) storable => ?_
        dsimp only
        split
        · exact (Attempt.sustains_modify fun _ sound => { sound with }).bind
            fun _ _ => Attempt.sustains_pure storable
        · exact (Attempt.sustains_modify fun _ sound => { sound with }).bind
            fun _ _ => Attempt.sustains_pure storable

theorem upkeeps_read {target : Target} (named : target.Named) :
    Upkeeps config holds (read target : Attempt (Machine H) Unit) fun _ => True := by
  apply Attempt.sustains_get.bind
  intro machine _
  apply (upkeeps_nextItem upheld _).bind
  intro value storable
  exact Attempt.sustains_guard fun _ => upkeeps_assign named storable

/-! ## Slots -/

theorem upkeeps_transferFailed {α : Type} {yields : α → Prop} (fault : SlotFault) :
    Upkeeps config holds (transferFailed fault : Attempt (Machine H) α) yields :=
  (upkeeps_tellConsole fun console => upheld.notice _ console).bind
    fun _ _ => Attempt.sustains_throw _

theorem upkeeps_save {slot : Int} (allowed : savable slot.toNat) :
    Upkeeps config holds (save slot : Attempt (Machine H) Unit) fun _ => True := by
  apply (sustains_slotNumber slot).bind
  intro number same
  subst same
  apply Attempt.sustains_get.bind
  intro machine _
  split
  · exact (upkeeps_transferFailed upheld _).bind fun _ (never : False) => never.elim
  · have persisted : Sustains holds (Attempt.ofUpdate (SlotStore.persist slot.toNat
        (Image.encode machine.config ⟨machine.program, machine.variableStore⟩)))
        fun _ => True :=
      fun console start => ⟨trivial, upheld.persist _ _ console start allowed⟩
    apply (upkeeps_onConsole persisted).bind
    intro outcome _
    cases outcome with
    | ok => exact Attempt.sustains_pure trivial
    | error fault => exact upkeeps_transferFailed upheld fault

theorem upkeeps_fetchBlock (slot : Nat) :
    Upkeeps config holds (fetchBlock slot : Attempt (Machine H) _) fun _ => True := by
  unfold fetchBlock
  split
  · exact Attempt.sustains_get.bind fun _ _ => Attempt.sustains_pure trivial
  · exact upkeeps_onConsole fun console start => ⟨trivial, upheld.read slot console start⟩

/-- Whatever block is loaded, only what is sound takes the place of what there was. -/
theorem upkeeps_load (room : 1 ≤ config.variablesSize) (slot : Int) :
    Upkeeps config holds (load slot : Attempt (Machine H) Unit) fun _ => True := by
  apply (sustains_slotNumber slot).bind
  intro number _
  apply (upkeeps_fetchBlock upheld number).bind
  intro block _
  apply Attempt.sustains_get.bind
  intro machine sound
  cases read : block >>= Image.decode machine.config with
  | error fault => exact upkeeps_transferFailed upheld fault
  | ok image =>
      obtain ⟨bytes, rfl⟩ : ∃ bytes, block = .ok bytes := by
        cases block with
        | error fault => cases read
        | ok bytes => exact ⟨bytes, rfl⟩
      have loaded := sound.config_eq ▸ Image.sound_of_decode (sound.config_eq ▸ room) read
      exact Attempt.sustains_set
        { sound with program := loaded.program, variableStore := loaded.variableStore }

/-! ## All commands -/

omit upheld [Console H] in
theorem upkeeps_lineNumber (value : Int) :
    Upkeeps config holds (Attempt.ofExcept (lineNumber value) : Attempt (Machine H) Nat)
      fun _ => True :=
  Attempt.sustains_ofExcept fun _ _ => trivial

omit upheld [Console H] in
theorem Sound.clearVariables {machine : Machine H} (sound : machine.Sound config holds) :
    machine.clearVariables.Sound config holds :=
  { sound with variableStore := sound.variableStore.clear }

omit upheld [Console H] in
theorem upkeeps_startEntry {target : Target} (named : target.Named) :
    Upkeeps config holds (startEntry target : Attempt (Machine H) Unit) fun _ => True := by
  refine Attempt.sustains_get.bind fun machine sound => Attempt.sustains_guard fun _ => ?_
  have oneLine : Code.newline ∉ machine.edit.clear.text := List.not_mem_nil
  refine Attempt.sustains_set { sound with oneLine, entry := fun other same => ?_ }
  cases same
  exact named

omit upheld in
theorem upkeeps_startPause (duration : Int) (sounding : Bool) :
    Upkeeps config holds (startPause duration sounding : Attempt (Machine H) Unit)
      fun _ => True :=
  Attempt.sustains_modify fun _ sound => { sound with entry := nofun }

/-- A sound command leaves a machine sound, whether it ends well or fails half way. -/
theorem upkeeps_perform (room : 1 ≤ config.variablesSize) {command : Command}
    (commandSound : command.Sound config.word) (permitted : command.Permitted savable) :
    Upkeeps config holds (perform command : Attempt (Machine H) Unit) fun _ => True := by
  cases command with
  | list start => exact (upkeeps_lineNumber _).bind fun _ _ => upkeeps_list upheld _
  | run start =>
      exact (upkeeps_lineNumber _).bind fun _ _ =>
        Attempt.sustains_modify fun _ sound => upkeeps_goto _ sound.clearVariables
  | new =>
      refine Attempt.sustains_modify fun machine sound => ?_
      have cleared : Sound config holds { machine with program := machine.program.clear } :=
        { sound with program := sound.program.clear }
      exact upkeeps_goto _ cleared.clearVariables
  | clear => exact Attempt.sustains_modify fun _ sound => sound.clearVariables
  | cont =>
      refine Attempt.sustains_modify fun machine sound => ?_
      split
      · exact sound
      · exact upkeeps_goto _ sound
  | save slot => exact upkeeps_save upheld (permitted slot rfl)
  | load slot => exact upkeeps_load upheld room slot
  | assign target value => exact upkeeps_assign commandSound.1 commandSound.2
  | input target => exact upkeeps_startEntry commandSound
  | goto line =>
      exact (upkeeps_lineNumber _).bind fun _ _ =>
        Attempt.sustains_modify fun _ sound => upkeeps_goto _ sound
  | gosub line =>
      refine (upkeeps_lineNumber _).bind fun line _ => Attempt.sustains_get.bind
        fun machine sound => ?_
      refine (Attempt.sustains_ofExcept fun _ _ => trivial).bind fun returns (_ : True) => ?_
      exact Attempt.sustains_set { sound with }
  | «return» =>
      apply Attempt.sustains_get.bind
      intro machine sound
      split
      · exact Attempt.sustains_set { sound with }
      · exact Attempt.sustains_throw _
  | loop name start limit =>
      obtain ⟨named, startFits, limitFits⟩ := commandSound
      refine (upkeeps_onVariables (Variables.sustains_assignNumber named startFits)).bind
        fun _ _ => Attempt.sustains_get.bind fun machine _ => ?_
      exact upkeeps_onVariables
        (Variables.sustains_startLoop limitFits machine.nextLineNumber_lt)
  | next name =>
      apply (upkeeps_onVariables Variables.sustains_stepLoop).bind
      intro resume _
      cases resume with
      | none => exact Attempt.sustains_pure trivial
      | some line => exact Attempt.sustains_modify fun _ sound => upkeeps_goto _ sound
  | stop => exact Attempt.sustains_throw _
  | dimension name maxIndex =>
      exact upkeeps_onVariables (Variables.sustains_declareArray name maxIndex)
  | read target => exact upkeeps_read upheld commandSound
  | restore line =>
      exact (upkeeps_lineNumber _).bind fun _ _ =>
        Attempt.sustains_modify fun _ sound => { sound with }
  | poke address value => exact upkeeps_poke address value
  | beep duration pitch =>
      rw [perform]
      split
      · exact Attempt.sustains_throw _
      · exact (upkeeps_tellConsole fun console => upheld.startTone pitch console).bind
          fun _ _ => upkeeps_startPause duration true
  | wait duration =>
      rw [perform]
      split
      · exact Attempt.sustains_throw _
      · exact upkeeps_startPause duration false
  | cls => exact upkeeps_tellConsole upheld.clear

end

end Machine
end HomeBasic
