import HomeBasic.Machine.Commands
import HomeBasic.Proofs.Attempt.Rules
import HomeBasic.Proofs.Slot.Image

/-!
# What a transfer comes to

A slot is read from outside, so anything can be wrong with what comes from it. A `LOAD` decodes
the whole block before it changes anything.

Main statements: a `SAVE` changes only the console (`save_of_hasSlot`), and a `LOAD` puts an image
in place of everything that a run remembers, or changes only the console too (`load_cases`).
-/

namespace HomeBasic

/-- A transfer fails in one of two ways. -/
theorem SlotFault.fault_cases (fault : SlotFault) :
    fault.fault = .subscriptOutOfRange ∨ fault.fault = .stopped := by
  cases fault with
  | noSuchSlot | readOnly => exact .inl rfl
  | _ => exact .inr rfl

namespace Machine

variable {H : Type} [Console H] {machine : Machine H}

/-! ## Slots -/

/-- A number means a slot. -/
def HasSlot (machine : Machine H) (slot : Int) : Prop :=
  0 ≤ slot ∧ slot < SlotStore.slotCount machine.console

/-- What reading a slot comes to; the built-in program is always there. -/
def slotBlock (machine : Machine H) (slot : Nat) : Except SlotFault (List Code) :=
  if slot = 0 then .ok (Image.builtin machine.config)
  else (SlotStore.read slot machine.console).1

/-- A number means a slot that holds an image: its block has the right size, and each half of it
is a store. -/
structure Finds (machine : Machine H) (slot : Int) (image : Image) : Prop where
  present : machine.HasSlot slot
  held : ∃ block, machine.slotBlock slot.toNat = .ok block ∧
    block.length = machine.config.blockSize ∧
    Program.decode? machine.config.programSize (block.take machine.config.programSize) =
      some image.program ∧
    Variables.decode? machine.config.word machine.config.variablesSize
      (block.drop machine.config.programSize) = some image.variableStore

/-- A slot holds one image at most. -/
theorem Finds.image_eq {slot : Int} {image other : Image} (finds : machine.Finds slot image)
    (again : machine.Finds slot other) : image = other := by
  obtain ⟨block, read, -, program, variableStore⟩ := finds.held
  obtain ⟨same, reread, -, otherProgram, otherStore⟩ := again.held
  cases read.symm.trans reread
  obtain ⟨_, _⟩ := image
  obtain ⟨_, _⟩ := other
  obtain rfl := Option.some.inj (program.symm.trans otherProgram)
  obtain rfl := Option.some.inj (variableStore.symm.trans otherStore)
  rfl

theorem slotNumber_of_hasSlot {slot : Int} (present : machine.HasSlot slot) :
    slotNumber slot machine = (.ok slot.toNat, machine) := by
  simp only [slotNumber, Attempt.bind_apply, Attempt.get_apply]
  rw [if_pos (show 0 ≤ slot ∧ _ from present)]
  rfl

theorem slotNumber_of_not_hasSlot {slot : Int} (absent : ¬machine.HasSlot slot) :
    slotNumber slot machine = (.error .subscriptOutOfRange, machine) := by
  simp only [slotNumber, Attempt.bind_apply, Attempt.get_apply]
  rw [if_neg (show ¬(0 ≤ slot ∧ _) from absent)]
  rfl

theorem exists_fetchBlock (slot : Nat) (machine : Machine H) :
    ∃ console,
      fetchBlock slot machine = (.ok (machine.slotBlock slot), { machine with console }) := by
  unfold fetchBlock slotBlock
  split
  · exact ⟨machine.console, rfl⟩
  · exact ⟨_, rfl⟩

/-! ## Saving -/

/-- A save to a slot that is there depends on what keeping the block comes to. -/
theorem save_of_hasSlot {slot : Int} (present : machine.HasSlot slot) (numbered : slot ≠ 0) :
    save slot machine =
      match SlotStore.persist slot.toNat
        (Image.encode machine.config ⟨machine.program, machine.variableStore⟩)
        machine.console with
      | (.ok (), console) => (.ok (), { machine with console })
      | (.error fault, console) =>
          (.error fault.fault,
            { machine with console := Console.notice fault.message console }) := by
  have inside : slot.toNat ≠ 0 := by
    have nonnegative := present.1
    omega
  simp only [save, Attempt.bind_apply, slotNumber_of_hasSlot present, Attempt.get_apply]
  rw [if_neg inside]
  simp only [Attempt.bind_apply, onConsole, Attempt.within_apply, Attempt.ofUpdate_apply]
  rcases SlotStore.persist slot.toNat _ machine.console with ⟨fault | _, console⟩ <;> rfl

/-- The built-in slot cannot be saved to. -/
theorem save_builtin (present : machine.HasSlot 0) :
    save 0 machine =
      (.error .subscriptOutOfRange,
        { machine with
          console := Console.notice SlotFault.readOnly.message machine.console }) := by
  simp only [save, Attempt.bind_apply, slotNumber_of_hasSlot present]
  rfl

/-! ## Loading -/

/-- The machine with an image loaded into it, about to end its run. -/
def loaded (machine : Machine H) (image : Image) : Machine H :=
  { machine with
    program := image.program
    variableStore := image.variableStore
    returns := machine.returns.clear
    data := .fromLine 0
    resumeLine := 0
    jump := some 0 }

/-- A load from a slot that is there depends on what its block is decoded to. -/
theorem load_of_hasSlot {slot : Int} (present : machine.HasSlot slot) :
    ∃ console, load slot machine =
      match machine.slotBlock slot.toNat >>= Image.decode machine.config with
      | .ok image => (.ok (), { machine.loaded image with console })
      | .error fault => (.error fault.fault, { machine with console }) := by
  obtain ⟨console, fetched⟩ := exists_fetchBlock slot.toNat machine
  simp only [load, Attempt.bind_apply, slotNumber_of_hasSlot present, fetched,
    Attempt.get_apply]
  generalize machine.slotBlock slot.toNat >>= Image.decode machine.config = decoded
  cases decoded with
  | ok image => exact ⟨console, rfl⟩
  | error fault => exact ⟨_, rfl⟩

theorem load_of_finds {slot : Int} {image : Image} (finds : machine.Finds slot image) :
    ∃ console, load slot machine = (.ok (), { machine.loaded image with console }) := by
  obtain ⟨console, loads⟩ := load_of_hasSlot finds.present
  obtain ⟨block, read, halves⟩ := finds.held
  have decoded : machine.slotBlock slot.toNat >>= Image.decode machine.config = .ok image := by
    rw [read]
    exact Image.decode_eq_ok_iff.mpr halves
  rw [decoded] at loads
  exact ⟨console, loads⟩

theorem load_of_not_finds {slot : Int} (lost : ∀ image, ¬machine.Finds slot image) :
    ∃ fault console, (fault = .subscriptOutOfRange ∨ fault = .stopped) ∧
      load slot machine = (.error fault, { machine with console }) := by
  by_cases present : machine.HasSlot slot
  · obtain ⟨console, loads⟩ := load_of_hasSlot present
    cases decoded : machine.slotBlock slot.toNat >>= Image.decode machine.config with
    | error fault =>
        rw [decoded] at loads
        exact ⟨fault.fault, console, fault.fault_cases, loads⟩
    | ok image =>
        cases read : machine.slotBlock slot.toNat with
        | error fault =>
            rw [read] at decoded
            cases decoded
        | ok block =>
            rw [read] at decoded
            exact absurd ⟨present, block, read, Image.decode_eq_ok_iff.mp decoded⟩ (lost image)
  · refine ⟨.subscriptOutOfRange, machine.console, .inl rfl, ?_⟩
    rw [load, Attempt.bind_apply, slotNumber_of_not_hasSlot present]

/-- A load either finds an image and puts it in place of everything, or leaves it all alone. -/
theorem load_cases (slot : Int) (machine : Machine H) :
    (∃ image console, machine.Finds slot image ∧
      load slot machine = (.ok (), { machine.loaded image with console })) ∨
    ((∀ image, ¬machine.Finds slot image) ∧
      ∃ fault console, (fault = .subscriptOutOfRange ∨ fault = .stopped) ∧
        load slot machine = (.error fault, { machine with console })) := by
  by_cases found : ∃ image, machine.Finds slot image
  · obtain ⟨image, finds⟩ := found
    obtain ⟨console, loads⟩ := load_of_finds finds
    exact .inl ⟨image, console, finds, loads⟩
  · have lost : ∀ image, ¬machine.Finds slot image := fun image finds => found ⟨image, finds⟩
    exact .inr ⟨lost, load_of_not_finds lost⟩

end Machine
end HomeBasic
