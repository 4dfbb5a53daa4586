import HomeBasic.Proofs.Machine.Direct
import HomeBasic.Proofs.Machine.Saving

/-!
# Transfers in a run

A `LOAD` ends the run that it is part of, and no line of either program is carried out after it;
or it fails, and then no more than the console is another one. A `SAVE` or a `LOAD` that fails
mostly stops the program as `STOP` does, so `CONT` goes on behind it and does not try it again.

Main statements: `load_whole_or_nothing`, and where `CONT` goes on after a transfer that failed
(`retries_transfer_iff`).
-/

namespace HomeBasic

namespace Machine

variable {H : Type} [Console H] {machine : Machine H}

/-! ## Transfers that fail -/

/-- A transfer to or from a slot that is there fails: the slot is the built-in one, its block is
not kept or not read, or the block is no image. -/
inductive TransferFails (machine : Machine H) : Command → SlotFault → Prop
  | readOnly (present : machine.HasSlot 0) : TransferFails machine (.save 0) .readOnly
  | refused {slot : Int} {fault : SlotFault} (present : machine.HasSlot slot)
      (numbered : slot ≠ 0)
      (run : (SlotStore.persist slot.toNat (machine.image.encode machine.config)
        machine.console).1 = .error fault) :
      TransferFails machine (.save slot) fault
  | unread {slot : Int} {fault : SlotFault} (present : machine.HasSlot slot)
      (run : machine.slotBlock slot.toNat = .error fault) :
      TransferFails machine (.load slot) fault
  | corrupt {slot : Int} {block : List Code} (present : machine.HasSlot slot)
      (run : machine.slotBlock slot.toNat = .ok block)
      (bad : ∀ image, Image.decode machine.config block ≠ .ok image) :
      TransferFails machine (.load slot) .corrupt

/-- A transfer that fails tells of it, and changes nothing else. -/
theorem perform_of_transferFails {command : Command} {fault : SlotFault}
    (fails : machine.TransferFails command fault) :
    ∃ console, perform command machine = (.error fault.fault, { machine with console }) := by
  cases fails with
  | readOnly present => exact ⟨_, save_builtin present⟩
  | @refused slot _ present numbered run =>
      change (SlotStore.persist slot.toNat
        (Image.encode machine.config ⟨machine.program, machine.variableStore⟩)
        machine.console).1 = _ at run
      have saves := save_of_hasSlot present numbered
      rcases persisted : SlotStore.persist slot.toNat
        (Image.encode machine.config ⟨machine.program, machine.variableStore⟩)
        machine.console with ⟨outcome, console⟩
      rw [persisted] at run saves
      obtain rfl : outcome = .error fault := run
      exact ⟨_, saves⟩
  | unread present run =>
      obtain ⟨console, loads⟩ := load_of_hasSlot present
      rw [run] at loads
      exact ⟨console, loads⟩
  | @corrupt slot block present run bad =>
      obtain ⟨console, loads⟩ := load_of_hasSlot present
      have decoded : machine.slotBlock slot.toNat >>= Image.decode machine.config =
          .error .corrupt := by
        rw [run]
        change Image.decode machine.config block = _
        cases decoded : Image.decode machine.config block with
        | ok image => exact absurd decoded (bad image)
        | error other => rw [Image.decode_eq_error decoded]
      rw [decoded] at loads
      exact ⟨console, loads⟩

/-! ## The end of a run -/

/-- A run is over, or will be before another line is carried out. -/
def Ending (machine : Machine H) : Prop :=
  machine.phase = .editing ∨ machine.phase = .running ∧ machine.jump = some 0

omit [Console H] in
theorem Ending.turn?_eq_none (ending : machine.Ending) : machine.turn? = none := by
  obtain editing | ⟨running, jump⟩ := ending
  · rw [turn?, editing]
  · rw [turn?, running]
    exact if_pos (upcoming_of_jump jump)

theorem Ending.advance (ending : machine.Ending) :
    machine.advance.phase = .editing ∧ Aside machine machine.advance := by
  obtain editing | ⟨running, jump⟩ := ending
  · have stays : machine.advance = machine := by rw [Machine.advance, editing]
    rw [stays]
    exact ⟨editing, rfl, rfl, rfl, rfl, rfl, rfl, rfl, id⟩
  · have ends : machine.advance = conclude true (.ok ()) { machine with jump := none } := by
      rw [Machine.advance, running]
      exact if_pos (upcoming_of_jump jump)
    rw [ends]
    exact ⟨phase_conclude _ _ _, { aside_conclude true (.ok ()) _ with }⟩

/-- However many steps are left, the first one brings the end. -/
theorem Ending.settle_succ (ending : machine.Ending) (steps : Nat) :
    machine.settle (steps + 1) = machine.advance := by
  obtain ⟨ended, -⟩ := ending.advance
  obtain editing | ⟨running, -⟩ := ending
  · rw [settle_of_editing editing, Machine.advance, editing]
  · rw [settle_of_busy (fun editing => by cases running.symm.trans editing),
      settle_of_editing ended]

/-- No line is carried out any more, and the stores stay as they are. -/
theorem Ending.settle (ending : machine.Ending) (steps : Nat) :
    (machine.settle steps).turn? = none ∧ Aside machine (machine.settle steps) ∧
      (machine.settle (steps + 1)).phase = .editing := by
  obtain ⟨ended, aside⟩ := ending.advance
  rw [ending.settle_succ]
  cases steps with
  | zero => exact ⟨ending.turn?_eq_none, ⟨rfl, rfl, rfl, rfl, rfl, rfl, rfl, id⟩, ended⟩
  | succ steps =>
      rw [ending.settle_succ]
      exact ⟨Ending.turn?_eq_none (.inl ended), aside, ended⟩

theorem ending_lineDone (inProgram : Bool) (ends : machine.jump = some 0) :
    (machine.lineDone inProgram).Ending := by
  unfold lineDone
  dsimp only
  split
  · split
    · exact .inl (phase_conclude _ _ _)
    · exact .inr ⟨rfl, ends⟩
  · rw [if_pos (by rw [ends]; rfl)]
    exact .inr ⟨rfl, ends⟩

/-- A step that loads an image comes to the end of its run. -/
theorem ending_advance_of_loaded {slot : Int} {loader : Machine H} {image : Image} {console : H}
    (order : machine.order? = some (.load slot, loader))
    (run : perform (.load slot) loader = (.ok (), { loader.loaded image with console })) :
    machine.advance.Ending ∧ Aside (loader.loaded image) machine.advance := by
  obtain ⟨turn, read, found, taken, advances⟩ := exists_turn_of_order order
  have phase : loader.phase = .running ∨ ∃ statement, loader.phase = .direct statement := by
    rw [taken]
    exact phase_turn found
  rw [advances, run, @proceed_eq_lineDone _ _ { loader.loaded image with console } phase]
  exact ⟨ending_lineDone turn.inProgram rfl, { aside_lineDone turn.inProgram _ with }⟩

/--
A `LOAD` replaces everything or nothing.

Take any machine that carries out a `LOAD`, and any number for its slot. If the slot is there and
its block has the right size and a store in each half, program and variables are what these halves
hold, and the returns, the `DATA` pointer and the line to go on at are taken back. No further
line is carried out in that run, which is over after a step more. Otherwise the load fails in one
of two ways, and program, variables, returns and `DATA` pointer are as before.
-/
theorem load_whole_or_nothing (slot : Int) (loader : Machine H) :
    (∃ image, loader.Finds slot image ∧
      (∃ console, perform (.load slot) loader =
        (.ok (), { loader.loaded image with console })) ∧
      ∀ machine : Machine H, machine.order? = some (.load slot, loader) → ∀ steps,
        let later := machine.advance.settle steps
        later.turn? = none ∧ later.program = image.program ∧
          later.variableStore = image.variableStore ∧ later.returns = loader.returns.clear ∧
          later.data = .fromLine 0 ∧ (machine.advance.settle (steps + 1)).phase = .editing) ∨
    ((∀ image, ¬loader.Finds slot image) ∧
      ∃ fault console, (fault = .subscriptOutOfRange ∨ fault = .stopped) ∧
        perform (.load slot) loader = (.error fault, { loader with console }) ∧
        ∀ machine : Machine H, machine.order? = some (.load slot, loader) →
          machine.advance.phase = .editing ∧ machine.advance.program = machine.program ∧
            machine.advance.variableStore = machine.variableStore ∧
            machine.advance.returns = machine.returns ∧ machine.advance.data = machine.data) := by
  rcases load_cases slot loader with
    ⟨image, console, finds, run⟩ | ⟨lost, fault, console, either, run⟩
  · refine .inl ⟨image, finds, ⟨console, run⟩, fun machine order steps => ?_⟩
    obtain ⟨ending, aside⟩ := ending_advance_of_loaded order run
    obtain ⟨idle, further, ended⟩ := ending.settle steps
    exact ⟨idle, further.program.trans aside.program,
      further.variableStore.trans aside.variableStore, further.returns.trans aside.returns,
      further.data.trans aside.data, ended⟩
  · refine .inr ⟨lost, fault, console, either, run, fun machine order => ?_⟩
    obtain ⟨turn, read, turned, rfl, advances⟩ := exists_turn_of_order order
    obtain ⟨jump, line, same⟩ := exists_of_turn? turned
    have ends : machine.advance =
        conclude turn.inProgram (.error fault) { machine with jump, line, console } := by
      change machine.advance = proceed turn.inProgram (load slot _) at advances
      rw [advances, run, same]
      rfl
    have aside := aside_conclude turn.inProgram (.error fault) { machine with jump, line, console }
    rw [ends]
    exact ⟨phase_conclude _ _ _, aside.program, aside.variableStore, aside.returns, aside.data⟩

/-- A machine that is about to carry out a line, with another one behind it and a block in slot 1
if there is one. -/
def transferring (line : String) (block : Option (List Code)) : Machine (Recorder MemorySlots) :=
  let config : Config := { programSize := 32, variablesSize := 8 }
  { start config (Recorder.start config [] ⟨[none, block]⟩) with
    program := ⟨Program.packLines [Line.ofText line, Line.ofText "20 CLS"] ++
      Program.terminator, 32⟩
    phase := .running
    jump := some 10 }

/-- A line is loaded in place of two, and nothing once the last byte of the block is gone. -/
theorem load_whole_or_nothing_transferring :
    let program : Program := ⟨Program.packLines [Line.ofText "30 STOP"] ++ Program.terminator, 32⟩
    let block := Image.encode { programSize := 32, variablesSize := 8 } ⟨program, .empty .long 8⟩
    let whole := transferring "10 LOAD 1" (some block)
    let cut := transferring "10 LOAD 1" (some block.dropLast)
    (whole.advance.program = program ∧ whole.advance.turn? = none) ∧
      cut.advance.program = cut.program := by
  intro program block whole cut
  have asks : whole.order?.map (fun order =>
      (order.1, order.2.slotBlock 1, SlotStore.slotCount order.2.console)) =
        some (.load 1, .ok block, 2) := by
    decide +kernel
  have asksCut : cut.order?.map (fun order => (order.1, order.2.slotBlock 1)) =
      some (.load 1, .ok block.dropLast) := by
    decide +kernel
  constructor
  · obtain ⟨⟨command, loader⟩, order, facts⟩ := Option.map_eq_some_iff.mp asks
    obtain ⟨rfl, facts⟩ := Prod.mk.inj facts
    obtain ⟨held, count⟩ := Prod.mk.inj facts
    have config : loader.config = whole.config := (advance_of_order order).1.config
    have finds : loader.Finds 1 ⟨program, .empty .long 8⟩ := by
      refine ⟨⟨by decide, by rw [count]; decide⟩, block, held, ?_⟩
      rw [config]
      exact Image.decode_eq_ok_iff.mp (by decide +kernel)
    rcases load_whole_or_nothing 1 loader with ⟨image, found, -, run⟩ | ⟨lost, -⟩
    · obtain ⟨ended, stored, -⟩ := run whole order 0
      rw [found.image_eq finds] at stored
      exact ⟨stored, ended⟩
    · exact absurd finds (lost _)
  · obtain ⟨⟨command, loader⟩, order, facts⟩ := Option.map_eq_some_iff.mp asksCut
    obtain ⟨rfl, held⟩ := Prod.mk.inj facts
    have config : loader.config = cut.config := (advance_of_order order).1.config
    rcases load_whole_or_nothing 1 loader with ⟨image, found, -⟩ | ⟨-, fault, console, -, -, run⟩
    · obtain ⟨other, read, length, -⟩ := found.held
      cases held.symm.trans read
      rw [config] at length
      exact absurd length (by decide +kernel)
    · exact (run cut order).2.1

/-! ## `CONT` after a transfer that failed -/

/-- A typed `CONT` goes on with the line that was left, and leaves the stores as they are. -/
theorem ahead_continued (text : machine.edit.text = []) (cursor : machine.edit.cursor = 0) :
    machine.continued.ahead = machine.program.landing machine.resumeLine ∧
      machine.continued.program = machine.program ∧
      machine.continued.variableStore = machine.variableStore ∧
      machine.continued.returns = machine.returns ∧ machine.continued.data = machine.data := by
  by_cases left : machine.resumeLine = 0
  · obtain ⟨edit, glyph, console, resumes⟩ := exists_continued text cursor
    have ended := phase_continued_of_zero text cursor left
    rw [if_pos left] at resumes
    refine ⟨?_, ?_⟩
    · rw [ahead, ended, Program.landing, if_pos left]
    · rw [resumes]
      have aside := aside_proceed false (.ok (),
        { machine with
          edit, glyph, console, phase := .direct [StatementWord.cont.code], line := 0,
          jump := none })
      exact ⟨aside.program, aside.variableStore, aside.returns, aside.data⟩
  · have goesOn := continuesAt_resumeLine text cursor left
    refine ⟨?_, goesOn.program, goesOn.variableStore, goesOn.returns, goesOn.data⟩
    rw [ahead, goesOn.running, Program.landing, if_neg left]
    exact goesOn.upcoming

omit [Console H] in
/-- The line that is upcoming is found again by its own number. -/
theorem landing_upcoming (machine : Machine H) :
    machine.program.landing machine.upcoming = machine.upcoming := by
  unfold upcoming
  split
  next => rfl
  next target _ _ => exact machine.program.landing_firstFrom target
  next =>
    unfold nextLineNumber
    split
    next => rfl
    next => exact machine.program.landing_firstFrom _

/-- A transfer that fails in a program is remembered for `CONT`, as a stop or as a fault. -/
theorem exists_advance_of_transferFails {command : Command} {carrier : Machine H}
    {fault : SlotFault} (running : machine.phase = .running)
    (order : machine.order? = some (command, carrier))
    (fails : carrier.TransferFails command fault) :
    machine.upcoming ≠ 0 ∧
      ∃ edit glyph console,
        machine.advance =
          { machine with
            edit, glyph, console, phase := .editing, jump := none, line := machine.upcoming,
            resumeLine :=
              if fault.fault = .stopped then
                machine.program.firstFrom (Line.numberAfter machine.upcoming)
              else machine.upcoming } ∧
        edit.text = [] ∧ edit.cursor = 0 := by
  obtain ⟨turn, read, found, rfl, advances⟩ := exists_turn_of_order order
  obtain ⟨told, performed⟩ := perform_of_transferFails fails
  rcases turn?_cases found with ⟨statement, direct, -⟩ | ⟨-, more, rfl⟩
  · cases direct.symm.trans running
  · obtain ⟨edit, glyph, console, concluded, text, cursor⟩ :=
      exists_conclude true (.error fault.fault)
        { machine with jump := none, line := machine.upcoming, console := told }
    rw [performed] at advances
    refine ⟨more, edit, glyph, console, ?_, text, cursor⟩
    rw [advances]
    refine concluded.trans ?_
    obtain other | stops := fault.fault_cases
    · rw [other]
      rfl
    · rw [stops]
      dsimp only [leftAt, nextLineNumber]
      rw [if_neg more, if_pos rfl]

/--
A transfer that fails can be tried again exactly if it does not stop as `STOP` does.

Let a line of a program, of a number that leaves room for one more, ask for a transfer to or from
a slot that is there, and let the transfer fail. The machine is then editing, with program,
variables, returns and `DATA` pointer as before, and `CONT` leaves them so too. It goes on with
the line of the transfer if and only if the fault of the transfer is not the one of `STOP`;
otherwise it goes on with the line that follows in the program, or with none if there is no such
line.
-/
theorem retries_transfer_iff {command : Command} {carrier : Machine H} {fault : SlotFault}
    (running : machine.phase = .running) (room : machine.ahead < 65535)
    (order : machine.order? = some (command, carrier))
    (fails : carrier.TransferFails command fault) :
    let stopped := machine.advance
    (stopped.phase = .editing ∧ stopped.program = machine.program ∧
      stopped.variableStore = machine.variableStore ∧ stopped.returns = machine.returns ∧
      stopped.data = machine.data) ∧
    (stopped.continued.program = machine.program ∧
      stopped.continued.variableStore = machine.variableStore ∧
      stopped.continued.returns = machine.returns ∧ stopped.continued.data = machine.data) ∧
    (stopped.continued.ahead = machine.ahead ↔ fault.fault ≠ .stopped) ∧
    (fault.fault = .stopped →
      stopped.continued.ahead = machine.program.firstFrom (machine.ahead + 1)) := by
  intro stopped
  obtain ⟨more, edit, glyph, console, stops, text, cursor⟩ :=
    exists_advance_of_transferFails running order fails
  have here : machine.ahead = machine.upcoming := by rw [ahead, running]
  rw [here] at room
  have after : Line.numberAfter machine.upcoming = machine.upcoming + 1 :=
    Nat.mod_eq_of_lt (Nat.succ_lt_succ room)
  have behind : machine.program.firstFrom (machine.upcoming + 1) ≠ machine.upcoming := by
    intro same
    have above := Program.le_firstFrom (same.trans_ne more)
    omega
  rw [after] at stops
  change stopped = _ at stops
  obtain ⟨goesOn, kept⟩ := @ahead_continued _ _ stopped
    (by rw [stops]; exact text) (by rw [stops]; exact cursor)
  rw [stops] at goesOn kept ⊢
  have next : machine.program.landing
      (if fault.fault = .stopped then machine.program.firstFrom (machine.upcoming + 1)
        else machine.upcoming) =
      if fault.fault = .stopped then machine.program.firstFrom (machine.upcoming + 1)
      else machine.upcoming := by
    split
    · exact machine.program.landing_firstFrom _
    · exact landing_upcoming machine
  rw [goesOn.trans next, here]
  refine ⟨⟨rfl, rfl, rfl, rfl, rfl⟩, kept, ?_, fun stopping => if_pos stopping⟩
  by_cases stopping : fault.fault = .stopped
  · rw [if_pos stopping]
    exact iff_of_false behind fun other => other stopping
  · rw [if_neg stopping]
    exact iff_of_true rfl stopping

/-- A `LOAD` from an empty slot is left behind, and a `SAVE` to the built-in one comes again. -/
theorem retries_transfer_iff_transferring :
    (transferring "10 LOAD 1" none).advance.continued.ahead = 20 ∧
      (transferring "10 SAVE 0" none).advance.continued.ahead = 10 := by
  have asksLoad : (transferring "10 LOAD 1" none).order?.map (fun order =>
      (order.1, order.2.slotBlock 1, SlotStore.slotCount order.2.console)) =
        some (.load 1, .error (.empty 1), 2) := by
    decide +kernel
  have asksSave : (transferring "10 SAVE 0" none).order?.map (fun order =>
      (order.1, SlotStore.slotCount order.2.console)) = some (.save 0, 2) := by
    decide +kernel
  constructor
  · obtain ⟨⟨command, carrier⟩, order, facts⟩ := Option.map_eq_some_iff.mp asksLoad
    obtain ⟨rfl, facts⟩ := Prod.mk.inj facts
    obtain ⟨unread, count⟩ := Prod.mk.inj facts
    have fails : carrier.TransferFails (.load 1) (.empty 1) :=
      .unread ⟨by decide, by rw [count]; decide⟩ unread
    obtain ⟨-, -, -, goesOn⟩ := retries_transfer_iff rfl (by decide +kernel) order fails
    exact (goesOn rfl).trans (by decide +kernel)
  · obtain ⟨⟨command, carrier⟩, order, facts⟩ := Option.map_eq_some_iff.mp asksSave
    obtain ⟨rfl, count⟩ := Prod.mk.inj facts
    have fails : carrier.TransferFails (.save 0) .readOnly :=
      .readOnly ⟨by decide, by rw [count]; decide⟩
    obtain ⟨-, -, again, -⟩ := retries_transfer_iff rfl (by decide +kernel) order fails
    exact (again.mpr (by decide)).trans (by decide +kernel)

end Machine
end HomeBasic
