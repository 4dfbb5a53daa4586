import HomeBasic.Proofs.Machine.Frames
import HomeBasic.Proofs.Machine.Slots
import Mathlib.Logic.Relation

/-!
# Saving and loading again

Whatever happens to a machine, it can be saved, and what is loaded again is what was
saved. This holds of the block alone, and of a slot that keeps its block for as long as
nothing else is saved to it, however the machine goes on in between.

Main statement: `saved_of_reachable`.
-/

namespace HomeBasic

open Attempt (Sustains)
open Relation (ReflTransGen)

/--
A slot works: a block that is saved to it is held from then on, whatever else the console
is asked for, as long as nothing is saved to that slot again.
-/
structure Console.Retains {H : Type} [Console H] (size : WordSize) (slot : Nat)
    (ready : H → Prop) (holding : List Code → H → Prop) : Prop where
  numbered : 0 < slot
  present : ∀ console, ready console → slot < SlotStore.slotCount console
  persist : ∀ block console, ready console →
    (SlotStore.persist slot block console).1 = .ok () ∧
      holding block (SlotStore.persist slot block console).2
  read : ∀ block console, holding block console →
    slot < SlotStore.slotCount console ∧ (SlotStore.read slot console).1 = .ok block
  upheld : ∀ block, Console.Upheld size (· ≠ slot) (holding block)

/-- A recorder over slots in memory has the same slots all the time. -/
theorem Recorder.upheld_present {size : WordSize} {savable : Nat → Prop} (slot : Nat) :
    Console.Upheld size savable
      (Recorder.Ready fun slots : MemorySlots => slot < slots.blocks.length) := by
  refine Recorder.upheld (fun _ _ present => present) fun other block slots present _ => ?_
  by_cases inside : other < slots.blocks.length
  · simpa [SlotStore.persist, MemorySlots.persist, inside] using present
  · simpa [SlotStore.persist, MemorySlots.persist, inside] using present

/-- A slot in memory works behind a recorder. -/
theorem Recorder.retains {slot : Nat} (numbered : 0 < slot) (size : WordSize) :
    Console.Retains size slot
      (Recorder.Ready fun slots : MemorySlots => slot < slots.blocks.length)
      (fun block => Recorder.Ready fun slots : MemorySlots => slots.read slot = .ok block) where
  numbered := numbered
  present _ ready := ready.slots
  persist block recorder ready := by
    obtain ⟨changed, run⟩ : ∃ changed, recorder.slots.persist slot block = .ok changed :=
      ⟨_, if_pos ready.slots⟩
    have result : SlotStore.persist slot block recorder =
        (.ok (), { recorder with slots := changed }) := by
      simp only [SlotStore.persist, run]
    rw [result]
    exact ⟨rfl, ready.displayed, MemorySlots.read_persist run⟩
  read block recorder held := by
    refine ⟨?_, held.slots⟩
    by_contra outside
    have absent : recorder.slots.blocks[slot]? = none :=
      List.getElem?_eq_none (Nat.le_of_not_lt outside)
    have kept := held.slots
    rw [MemorySlots.read, absent] at kept
    cases kept
  upheld block := by
    refine Recorder.upheld (fun _ _ kept => kept) fun other otherBlock slots kept different => ?_
    cases run : slots.persist other otherBlock with
    | error fault => simpa only [SlotStore.persist, run] using kept
    | ok changed =>
        simpa only [SlotStore.persist, run, MemorySlots.read_persist_of_ne run different] using kept

namespace Machine

variable {H : Type} [Console H] {config : Config} {savable : Nat → Prop} {holds : H → Prop}
  {machine : Machine H}

/--
What may happen to a machine: it takes a key that types a display code, or a step that
saves only where it may, its edit line is emptied, or its console changes by itself.
-/
inductive Step (savable : Nat → Prop) (holds : H → Prop) : Machine H → Machine H → Prop
  | press {machine : Machine H} {key : Key} (displayed : key.Displayed) :
      Step savable holds machine (machine.press key).2
  | advance {machine : Machine H}
      (permitted : ∀ command, machine.asked = some command → command.Permitted savable) :
      Step savable holds machine machine.advance
  | retype {machine : Machine H} :
      Step savable holds machine { machine with edit := machine.edit.clear }
  | outside {machine : Machine H} {console : H} (ready : holds console) :
      Step savable holds machine { machine with console }

theorem steps_pressAll {keys : List Key} (displayed : ∀ key ∈ keys, key.Displayed) :
    ReflTransGen (Step savable holds) machine (machine.pressAll keys) := by
  induction keys generalizing machine with
  | nil => exact .refl
  | cons key rest inductionHypothesis =>
      obtain ⟨first, others⟩ := List.forall_mem_cons.mp displayed
      exact (inductionHypothesis others).head (.press first)

/-- A machine that can come about from a start, with any keys and any slots. -/
def Reachable (config : Config) (ready : H → Prop) (machine : Machine H) : Prop :=
  ∃ console, ready console ∧
    ReflTransGen (Step (fun _ => True) ready) (start config console) machine

section
variable (upheld : Console.Upheld config.word savable holds)
include upheld

theorem Sound.step (room : 1 ≤ config.variablesSize) {changed : Machine H}
    (sound : machine.Sound config holds) (step : Step savable holds machine changed) :
    changed.Sound config holds := by
  cases step with
  | press displayed => exact sound.press upheld displayed
  | advance permitted => exact sound.advance upheld room permitted
  | retype => exact sound.withEdit List.not_mem_nil
  | outside ready => exact { sound with console := ready }

theorem Sound.steps (room : 1 ≤ config.variablesSize) {changed : Machine H}
    (sound : machine.Sound config holds)
    (steps : ReflTransGen (Step savable holds) machine changed) :
    changed.Sound config holds := by
  induction steps with
  | refl => exact sound
  | tail _ last inductionHypothesis => exact inductionHypothesis.step upheld room last

end

/-! ## Runs -/

/-- However many steps a machine takes, it could have come about by itself. -/
theorem Reachable.settle {ready : H → Prop} (reachable : Reachable config ready machine)
    (steps : Nat) : Reachable config ready (machine.settle steps) := by
  induction steps generalizing machine with
  | zero => exact reachable
  | succ steps inductionHypothesis =>
      obtain ⟨console, start, reached⟩ := reachable
      have advanced : Reachable config ready machine.advance :=
        ⟨console, start, reached.tail (.advance fun _ _ _ _ => trivial)⟩
      unfold Machine.settle
      split
      · exact ⟨console, start, reached⟩
      · exact inductionHypothesis advanced

theorem Reachable.type {ready : H → Prop} (reachable : Reachable config ready machine)
    (steps : Nat) {key : Key} (displayed : key.Displayed) :
    Reachable config ready (machine.type steps key).2 := by
  obtain ⟨console, start, reached⟩ := reachable
  have pressed : Reachable config ready (machine.press key).2 :=
    ⟨console, start, reached.tail (.press displayed)⟩
  exact pressed.settle steps

theorem Reachable.typeAll {ready : H → Prop} (reachable : Reachable config ready machine)
    (steps : Nat) {keys : List Key} (displayed : ∀ key ∈ keys, key.Displayed) :
    Reachable config ready (machine.typeAll steps keys).2 := by
  induction keys generalizing machine with
  | nil => exact reachable
  | cons key rest inductionHypothesis =>
      obtain ⟨first, others⟩ := List.forall_mem_cons.mp displayed
      exact inductionHypothesis (reachable.type steps first) others

/-- A line that is entered is typed key by key. -/
theorem Reachable.enter {ready : H → Prop} (reachable : Reachable config ready machine)
    (steps : Nat) (text : String) : Reachable config ready (machine.enter steps text).2 := by
  obtain ⟨console, start, reached⟩ := reachable
  have emptied : Reachable config ready { machine with edit := machine.edit.clear } :=
    ⟨console, start, reached.tail .retype⟩
  have displayed : ∀ key ∈ (Code.encode text).map Key.code, key.Displayed := by
    intro key member code same
    obtain ⟨other, encoded, rfl⟩ := List.mem_map.mp member
    cases same
    exact Code.shown_encode text _ encoded
  exact (emptied.typeAll steps displayed).type steps nofun

section
variable {ready : H → Prop} (upheld : Console.Upheld config.word (fun _ => True) ready)
  (programRoom : 2 ≤ config.programSize) (variablesRoom : 1 ≤ config.variablesSize)
include upheld programRoom variablesRoom

theorem Reachable.sound (reachable : Reachable config ready machine) :
    machine.Sound config ready := by
  obtain ⟨console, start, reached⟩ := reachable
  exact (sound_start upheld programRoom variablesRoom start).steps upheld variablesRoom reached

/-- The keys of a console are taken one after the other. -/
theorem Reachable.feed (reachable : Reachable config ready machine) (steps keys : Nat) :
    Reachable config ready (machine.feed steps keys) := by
  induction keys generalizing machine with
  | zero => exact reachable
  | succ keys inductionHypothesis =>
      have held := (reachable.sound upheld programRoom variablesRoom).console
      obtain ⟨console, start, reached⟩ := reachable
      have taken : Reachable config ready
          { machine with console := (Console.nextKey machine.console).2 } :=
        ⟨console, start, reached.tail (.outside (upheld.nextKey _ held))⟩
      have displayed := upheld.displayed machine.console
      unfold Machine.feed
      generalize Console.nextKey machine.console = pressed at taken displayed ⊢
      obtain ⟨_ | key, changed⟩ := pressed
      · exact taken
      · exact inductionHypothesis (taken.type steps (displayed key held rfl))

end

/-! ## A step that saves or loads -/

/-- A step carries out the command that is asked for, on a console that was read from. -/
theorem advance_of_asked (upheld : Console.Upheld config.word savable holds)
    (sound : machine.Sound config holds) {command : Command}
    (asked : machine.asked = some command) :
    ∃ inProgram jump line console, holds console ∧
      machine.advance =
        proceed inProgram (perform command { machine with jump, line, console }) := by
  unfold Machine.asked at asked
  obtain ⟨turn, found, read⟩ := Option.bind_eq_some_iff.mp asked
  obtain ⟨jump, line, same⟩ := exists_of_turn? found
  have reached := upkeeps_readLine upheld turn.scanner turn.machine (sound.turn found)
  rw [advance_eq_proceed found]
  unfold carryOut
  rw [Attempt.bind_apply]
  rw [atDesk_apply] at read reached ⊢
  generalize Statement.line turn.machine.environment .execute (turn.machine.desk turn.scanner) =
    outcome at read reached ⊢
  rcases outcome with ⟨fault | found, desk⟩
  · cases read
  · cases read
    exact ⟨turn.inProgram, jump, line, desk.console, reached.2.console, by rw [same]⟩

/-- Going on after a command leaves the program and its variables as they are. -/
theorem stores_proceed (inProgram : Bool) (outcome : Except Fault Unit × Machine H) :
    (proceed inProgram outcome).program = outcome.2.program ∧
      (proceed inProgram outcome).variableStore = outcome.2.variableStore :=
  let aside := aside_proceed inProgram outcome
  ⟨aside.program, aside.variableStore⟩

theorem hasSlot_of_lt {slot : Nat} (present : slot < SlotStore.slotCount machine.console) :
    machine.HasSlot slot :=
  ⟨Int.natCast_nonneg slot, Int.ofNat_lt.mpr present⟩

section
variable {slot : Nat} {ready : H → Prop} {holding : List Code → H → Prop}
  (retains : Console.Retains config.word slot ready holding)
include retains

/-- A save to a slot that works ends well. -/
theorem perform_save (held : ready machine.console) :
    perform (.save slot) machine =
      (.ok (), { machine with
        console := (SlotStore.persist slot
          (Image.encode machine.config ⟨machine.program, machine.variableStore⟩)
          machine.console).2 }) := by
  have persisted := (retains.persist
    (Image.encode machine.config ⟨machine.program, machine.variableStore⟩) _ held).1
  have saves := save_of_hasSlot (hasSlot_of_lt (retains.present _ held))
    (Int.natCast_ne_zero.mpr (Nat.ne_of_gt retains.numbered))
  rw [Int.toNat_natCast] at saves
  change save slot machine = _
  generalize SlotStore.persist slot
    (Image.encode machine.config ⟨machine.program, machine.variableStore⟩)
    machine.console = kept at persisted saves ⊢
  obtain ⟨outcome, console⟩ := kept
  obtain rfl : outcome = .ok () := persisted
  exact saves

/-- What is loaded is what the block that is held is an image of. -/
theorem perform_load {image : Image} (held : holding (image.encode config) machine.console)
    (same : machine.config = config)
    (decoded : Image.decode config (image.encode config) = .ok image) :
    (perform (.load slot) machine).2.program = image.program ∧
      (perform (.load slot) machine).2.variableStore = image.variableStore := by
  obtain ⟨present, read⟩ := retains.read _ _ held
  have found : machine.Finds slot image := by
    refine ⟨hasSlot_of_lt present, image.encode config, ?_, ?_⟩
    · rw [Int.toNat_natCast, slotBlock, if_neg (Nat.ne_of_gt retains.numbered), read]
    · rw [same]
      exact Image.decode_eq_ok_iff.mp decoded
  obtain ⟨console, loads⟩ := load_of_finds found
  change (load slot machine).2.program = _ ∧ (load slot machine).2.variableStore = _
  rw [loads]
  exact ⟨rfl, rfl⟩

end

/-! ## From a start -/

/-- What is saved of a machine. -/
def image (machine : Machine H) : Image :=
  ⟨machine.program, machine.variableStore⟩

omit [Console H] in
theorem Sound.image (sound : machine.Sound config holds) : machine.image.Sound config :=
  ⟨sound.program, sound.variableStore⟩

/-- After a save the slot holds the image, and goes on to hold it. -/
theorem Sound.advance_save {slot : Nat} {ready : H → Prop} {holding : List Code → H → Prop}
    (upheld : Console.Upheld config.word savable ready)
    (retains : Console.Retains config.word slot ready holding)
    (sound : machine.Sound config ready) (asked : machine.asked = some (.save slot)) :
    machine.advance.Sound config (holding (machine.image.encode config)) := by
  obtain rfl := sound.config_eq
  obtain ⟨inProgram, jump, line, console, held, step⟩ := advance_of_asked upheld sound asked
  rw [step, perform_save retains held]
  have kept := (retains.persist (machine.image.encode machine.config) console held).2
  refine sound_proceed (retains.upheld _) ?_ inProgram
  exact ⟨trivial, { sound with console := kept }⟩

/-- A load yields what the slot holds the image of. -/
theorem Sound.advance_load {slot : Nat} {ready : H → Prop} {holding : List Code → H → Prop}
    {image : Image} (retains : Console.Retains config.word slot ready holding)
    (decoded : Image.decode config (image.encode config) = .ok image)
    (sound : machine.Sound config (holding (image.encode config)))
    (asked : machine.asked = some (.load slot)) : machine.advance.image = image := by
  obtain ⟨inProgram, jump, line, console, held, step⟩ :=
    advance_of_asked (retains.upheld _) sound asked
  obtain ⟨program, variableStore⟩ := stores_proceed inProgram
    (perform (.load slot) { machine with jump, line, console })
  have loaded := @perform_load _ _ _ { machine with jump, line, console } _ _ _ retains image held
    sound.config_eq decoded
  rw [Machine.image, step, program, variableStore, loaded.1, loaded.2]

/--
Whatever happened to a machine, its image fills a block, and the block holds the machine's
program and variables. From a save to a slot that works to the next load from it they
come back, whatever else happens, as long as nothing else is saved to the slot.
-/
theorem saved_of_reachable {ready : H → Prop}
    (upheld : Console.Upheld config.word (fun _ => True) ready)
    (programRoom : 2 ≤ config.programSize) (variablesRoom : 1 ≤ config.variablesSize)
    (reachable : Reachable config ready machine) :
    (machine.image.encode config).length = config.blockSize ∧
    Image.decode config (machine.image.encode config) = .ok machine.image ∧
    ∀ (slot : Nat) (holding : List Code → H → Prop) (later : Machine H),
      Console.Retains config.word slot ready holding →
      machine.asked = some (.save slot) →
      ReflTransGen (Step (· ≠ slot) (holding (machine.image.encode config)))
        machine.advance later →
      later.asked = some (.load slot) →
      later.advance.image = machine.image := by
  have sound := reachable.sound upheld programRoom variablesRoom
  have decoded := Image.decode_encode sound.image
  refine ⟨Image.length_encode config machine.image, decoded, ?_⟩
  intro slot holding later retains saves steps loads
  have saved := sound.advance_save upheld retains saves
  have kept := saved.steps (retains.upheld _) variablesRoom steps
  exact kept.advance_load retains decoded loads

/-- A line of a small machine is saved, and after `NEW` it is loaded again. -/
theorem saved_of_reachable_recorder :
    let config : Config := { programSize := 16, variablesSize := 8 }
    let entering := fun (text : String) (machine : Machine (Recorder MemorySlots)) =>
      machine.pressAll (Teletype.keysOf text.toList)
    let saving := entering "SAVE 1"
      (entering "10 CLS" (start config (Recorder.start config [] (MemorySlots.empty 2))))
    let loading := entering "LOAD 1" (entering "NEW" saving.advance).advance.advance
    (saving.image.encode config).length = config.blockSize ∧
      Image.decode config (saving.image.encode config) = .ok saving.image ∧
      loading.image ≠ saving.image ∧ loading.advance.image = saving.image := by
  intro config entering saving loading
  have upheld : Console.Upheld config.word (fun _ => True)
      (Recorder.Ready fun slots : MemorySlots => 1 < slots.blocks.length) :=
    Recorder.upheld_present 1
  have typed : ∀ (text : String) (key : Key), key ∈ Teletype.keysOf text.toList → key.Displayed :=
    fun _ _ => Teletype.displayed_keysOf
  have reachable : Reachable config
      (Recorder.Ready fun slots : MemorySlots => 1 < slots.blocks.length) saving :=
    ⟨_, ⟨by simp [Recorder.start], by decide⟩,
      (steps_pressAll (typed _)).trans (steps_pressAll (typed _))⟩
  have saved := saved_of_reachable upheld (by decide) (by decide) reachable
  have cleared : (entering "NEW" saving.advance).asked = some .new := by decide +kernel
  have ended : (entering "NEW" saving.advance).advance.asked = none := by decide +kernel
  refine ⟨saved.1, saved.2.1, by decide +kernel, ?_⟩
  refine saved.2.2 1 _ loading (Recorder.retains (by decide) _) (by decide +kernel) ?_
    (by decide +kernel)
  refine (steps_pressAll (typed _)).trans (.head (.advance ?_) (.head (.advance ?_)
    (steps_pressAll (typed _))))
  · intro command same slot saves
    rw [cleared] at same
    cases same
    cases saves
  · intro command same
    rw [ended] at same
    cases same

end Machine
end HomeBasic
