import HomeBasic.Proofs.Expression.Bounds
import HomeBasic.Proofs.Expression.Precedence
import HomeBasic.Proofs.Machine.Course
import HomeBasic.Proofs.Machine.Items
import HomeBasic.Proofs.Machine.Sound
import HomeBasic.Proofs.Slot.Bounds

/-!
# Commands with everything checked

What a command does to a machine, with every slice, every element, every difference and
every line number after another checked on the way. A sound command does the same so, on a
sound machine that is at a line which a program may have.

Main statement: `Sound.succeeds_perform`.
-/

namespace HomeBasic

open Checked
open Trial (Succeeds)

namespace Machine

variable {H : Type} {config : Config} {savable : Nat → Prop} {holds : H → Prop}
  {machine : Machine H}

/-! ## Trials of a machine -/

/-- A trial of the variable store. -/
def tryVariables {α : Type} (trial : Trial Variables α) : Trial (Machine H) α :=
  Trial.within (·.variableStore) (fun variableStore machine => { machine with variableStore }) trial

/-- Reads a line with a scanner at some place, with nothing pending. -/
def tryDesk {α : Type} (scanner : Scanner) (trial : Environment → Trial (Desk H) α) :
    Trial (Machine H) α := fun machine => do
  let (result, desk) ← trial machine.environment (machine.desk scanner)
  return (result, { machine with console := desk.console })

/-- The number of the line after the one being carried out, zero if there is none. -/
def checkedNextLineNumber (machine : Machine H) : Option Nat :=
  if machine.line = 0 then
    some 0
  else do
    return machine.program.firstFrom (← numberAfter? machine.line)

/-- Puts a value in its place. -/
def checkedAssign (target : Target) (value : Value) : Trial (Machine H) Unit :=
  match target, value with
  | .number name, .number value => tryVariables (Variables.checkedAssignNumber name value)
  | .element name index, .number value =>
      tryVariables (Variables.checkedAssignElement name index value)
  | .text name, .text codes => tryVariables (Variables.checkedAssignText name codes)
  | _, _ => throw .syntaxError

/-- Puts a byte into memory. -/
def checkedPoke (address value : Int) : Trial (Machine H) Unit := do
  let machine ← get
  if address < 0 ∨ machine.memory.size ≤ address.toNat then
    throw .subscriptOutOfRange
  if value < 0 ∨ 255 < value then
    throw .arithmeticOverflow
  let _ ← machine.memory[address.toNat]?
  let memory := machine.memory.setIfInBounds address.toNat (UInt8.ofNat value.toNat)
  set { machine with memory }

variable [Console H]

/-- Lists the program from a line on. -/
def checkedList (start : Nat) : Trial (Machine H) Unit := do
  let machine ← get
  let lines ← machine.program.checkedLinesAfter start
  Trial.ofAttempt (onConsole (Printing.listings (lines.map (·.listing machine.config.word))))

/-- Evaluates the item at an offset of a statement; yields the place of a further one too. -/
def readItemPlace (program : Program) (position : Nat) :
    Attempt (Machine H) (Value × Option Nat) :=
  atDesk (.ofBytes program.bytes position) fun environment => do
    let value ← Expression.evaluate environment .execute
    if (← Desk.look) = Code.comma then
      Desk.advance
      return (value, some (← get).scanner.position)
    else
      return (value, none)

/-- Evaluates the item at an offset of a statement with its names cut out of the program. -/
def checkedItemPlace (program : Program) (position : Nat) :
    Trial (Machine H) (Value × Option Nat) :=
  tryDesk (.ofBytes program.bytes position) fun environment => do
    let value ← Expression.checkedEvaluate program.bytes environment .execute
    if (← Trial.ofAttempt (Desk.look : Attempt (Desk H) Code)) = Code.comma then
      Trial.ofAttempt Desk.advance
      return (value, some (← get).scanner.position)
    else
      return (value, none)

/-- Evaluates the item at an offset of a statement; yields the offset of a further one too. -/
def checkedReadItem (program : Program) (body offset : Nat) :
    Trial (Machine H) (Value × Option Nat) := do
  let (value, place) ← checkedItemPlace program (body + offset)
  match place with
  | some position => return (value, some (← difference? position body))
  | none => return (value, none)

/-- Evaluates the next `DATA` item and moves the pointer past it. -/
def checkedNextItem : (turns : Nat) → Trial (Machine H) Value
  | 0 => throw .subscriptOutOfRange
  | turns + 1 => do
      let machine ← get
      let start := (machine.program.find machine.data.line).1
      let number := machine.program.numberAt start
      if number = 0 then
        throw .subscriptOutOfRange
      let body := start + 2
      let move := fun (pointer : DataPointer) (machine : Machine H) =>
        { machine with data := pointer }
      match machine.data.offset with
      | none =>
          let first ← machine.program.bytes[body]?
          if first = StatementWord.data.code then
            modify (move ⟨number, some 1⟩)
          else
            let following ← numberAfter? number
            modify (move (.fromLine following))
          checkedNextItem turns
      | some offset =>
          let (value, further) ← checkedReadItem machine.program body offset
          match further with
          | some offset => modify (move ⟨number, some offset⟩)
          | none =>
              let following ← numberAfter? number
              modify (move (.fromLine following))
          return value

/-- Reads the next `DATA` item into a place. -/
def checkedRead (target : Target) : Trial (Machine H) Unit := do
  let value ← checkedNextItem ((← get).program.bytes.length + 2)
  if value.isText ≠ target.isText then
    throw .syntaxError
  checkedAssign target value

/-- Saves the program and its variables. The built-in slot is read only. -/
def checkedSave (slot : Int) : Trial (Machine H) Unit := do
  let slot ← Trial.ofAttempt (slotNumber slot)
  let machine ← get
  let block ← Image.checkedEncode machine.config ⟨machine.program, machine.variableStore⟩
  if slot = 0 then
    Trial.ofAttempt (transferFailed .readOnly)
  match ← Trial.ofAttempt (onConsole (Attempt.ofUpdate (SlotStore.persist slot block))) with
  | .ok () => return
  | .error fault => Trial.ofAttempt (transferFailed fault)

/-- The block of a slot; slot 0 holds the built-in program. -/
def checkedFetchBlock (slot : Nat) : Trial (Machine H) (Except SlotFault (List Code)) := do
  if slot = 0 then
    let block ← Image.checkedBuiltin (← get).config
    return .ok block
  else
    Trial.ofAttempt (onConsole (Attempt.ofUpdate (SlotStore.read slot)))

/-- Loads a program and its variables in place of those there are, and ends the run. -/
def checkedLoad (slot : Int) : Trial (Machine H) Unit := do
  let slot ← Trial.ofAttempt (slotNumber slot)
  let block ← checkedFetchBlock slot
  let machine ← get
  let loaded ← match block with
    | .error fault => some (.error fault)
    | .ok bytes => Image.checkedDecode machine.config bytes
  match loaded with
  | .error fault => Trial.ofAttempt (transferFailed fault)
  | .ok image =>
      set <| goto 0
        { machine with
          program := image.program
          variableStore := image.variableStore
          returns := machine.returns.clear
          data := .fromLine 0
          resumeLine := 0 }

/-- Carries out a command. Most of them have nothing to check. -/
def checkedPerform : Command → Trial (Machine H) Unit
  | .list start => do
      checkedList (← Trial.ofAttempt (Attempt.ofExcept (lineNumber (start.getD 0))))
  | .save slot => checkedSave slot
  | .load slot => checkedLoad slot
  | .assign target value => checkedAssign target value
  | .gosub line => do
      let line ← Trial.ofAttempt (Attempt.ofExcept (lineNumber line))
      let machine ← get
      let behind ← machine.checkedNextLineNumber
      let returns ← Trial.ofAttempt (Attempt.ofExcept (machine.returns.push behind))
      set ({ machine with returns }.goto line)
  | .loop name start limit => do
      tryVariables (Variables.checkedAssignNumber name start)
      let machine ← get
      let resume ← machine.checkedNextLineNumber
      tryVariables (Variables.checkedStartLoop name limit resume)
  | .next name => do
      match ← tryVariables (Variables.checkedStepLoop name) with
      | some line => modify (goto line)
      | none => return
  | .dimension name maxIndex => tryVariables (Variables.checkedDeclareArray name maxIndex)
  | .read target => checkedRead target
  | .poke address value => checkedPoke address value
  | command => Trial.ofAttempt (perform command)

/-! ## Within bounds -/

omit [Console H] in
theorem checkedNextLineNumber_eq (numbered : machine.line ≤ Line.maxNumber) :
    machine.checkedNextLineNumber = some machine.nextLineNumber := by
  unfold checkedNextLineNumber nextLineNumber
  split
  · rfl
  · rw [numberAfter?_eq numbered]
    rfl

omit [Console H] in
theorem succeeds_tryVariables {α : Type} {trial : Trial Variables α} {step : Attempt Variables α}
    (inner : Succeeds trial step machine.variableStore) :
    Succeeds (tryVariables trial) (onVariables step) machine :=
  Succeeds.within inner

omit [Console H] in
theorem succeeds_tryDesk {α : Type} {scanner : Scanner} {trial : Environment → Trial (Desk H) α}
    {step : Environment → Attempt (Desk H) α}
    (inner : Succeeds (trial machine.environment) (step machine.environment)
      (machine.desk scanner)) :
    Succeeds (tryDesk scanner trial) (atDesk scanner step) machine := by
  have inner : trial machine.environment (machine.desk scanner) =
      some (step machine.environment (machine.desk scanner)) := inner
  rw [Succeeds, tryDesk, inner]
  rfl

omit [Console H] in
theorem succeeds_assign (counted : machine.variableStore.Counted) (target : Target)
    (value : Value) : Succeeds (checkedAssign target value) (assign target value) machine := by
  rcases target with name | ⟨name, index⟩ | name <;> rcases value with value | codes
  case number.number =>
    exact succeeds_tryVariables (Variables.succeeds_assignNumber name value _)
  case element.number =>
    exact succeeds_tryVariables (Variables.succeeds_assignElement name index value _)
  case text.text => exact succeeds_tryVariables (counted.succeeds_assignText name codes)
  all_goals rfl

omit [Console H] in
theorem succeeds_poke (address value : Int) :
    Succeeds (checkedPoke address value) (poke address value) machine := by
  refine Succeeds.bind rfl fun _ _ run => ?_
  cases run
  refine Succeeds.guard fun inside => ?_
  refine Succeeds.guard fun _ => ?_
  have inside : address.toNat < machine.memory.size := by omega
  exact Succeeds.bind_lift (Array.getElem?_eq_getElem inside) rfl

/-- What comes of the item at a place, told from how its evaluation ends. -/
theorem readItemPlace_eq (program : Program) (position : Nat) (machine : Machine H) :
    readItemPlace program position machine =
      match Expression.evaluate machine.environment .execute
        (machine.desk (.ofBytes program.bytes position)) with
      | (.error fault, reached) => (.error fault, { machine with console := reached.console })
      | (.ok value, reached) =>
          (.ok (value,
            if reached.scanner.look.current = Code.comma then
              some reached.scanner.look.advance.position
            else
              none),
            { machine with console := reached.console }) := by
  rw [readItemPlace, atDesk_apply, Attempt.bind_apply]
  rcases Expression.evaluate machine.environment .execute
    (machine.desk (.ofBytes program.bytes position)) with ⟨fault | value, reached⟩
  · rfl
  · dsimp only
    rw [Attempt.bind_apply, Desk.look_apply]
    dsimp only
    split <;> rfl

/-- The names of an item stand in the program, wherever the item starts. -/
theorem succeeds_itemPlace (program : Program) (position : Nat) :
    Succeeds (checkedItemPlace program position) (readItemPlace program position) machine := by
  refine succeeds_tryDesk (?_ : Desk.BoundedAt program.bytes _ _ _).succeeds
  refine (?_ : Desk.Bounded program.bytes _ _) _ (Scanner.over_ofBytes program.bytes position)
  refine Expression.bounded_evaluate.bind fun value => Desk.bounded_look.bind fun code => ?_
  split
  · exact Desk.bounded_advance.bind fun _ => Desk.bounded_get.bind fun _ => Desk.bounded_pure _
  · exact Desk.bounded_pure _

/-- A further item stands behind the start of the statement, as the one before it does. -/
theorem succeeds_readItem (program : Program) (body offset : Nat) :
    Succeeds (checkedReadItem program body offset) (readItem program body offset) machine := by
  have placed : checkedItemPlace program (body + offset) machine =
      some (readItemPlace program (body + offset) machine) := succeeds_itemPlace program _
  unfold Succeeds checkedReadItem
  rw [Trial.bind_apply, placed, Option.bind_some, readItemPlace_eq, readItem_eq]
  rcases run : Expression.evaluate machine.environment .execute
    (machine.desk (.ofBytes program.bytes (body + offset))) with ⟨fault | value, reached⟩
  · rfl
  · dsimp only
    split
    next =>
      obtain ⟨count, _, position, _⟩ := reached.scanner.look.follows_advance.trans
        (reached.scanner.follows_look.trans (Expression.follows_evaluate run))
      have behind : body ≤ reached.scanner.look.advance.position := by
        rw [position]
        exact Nat.le_add_right_of_le (Nat.le_add_right body offset)
      dsimp only
      rw [difference?_eq behind]
      rfl
    next => rfl

namespace Sound

variable (sound : machine.Sound config holds)
include sound

theorem succeeds_list (start : Nat) : Succeeds (checkedList start) (list start) machine := by
  refine Succeeds.bind rfl fun _ _ run => ?_
  cases run
  exact Succeeds.bind_lift (sound.program.checkedLinesAfter start) rfl

omit [Console H] in
theorem numberAfter?_firstFrom (number : Nat) :
    numberAfter? (machine.program.firstFrom number) =
      some (Line.numberAfter (machine.program.firstFrom number)) := by
  obtain ⟨lines, holds⟩ := sound.program.holds
  exact numberAfter?_eq (holds.firstFrom_le number)

theorem succeeds_nextItem (turns : Nat) :
    Succeeds (checkedNextItem turns) (nextItem turns) machine := by
  induction turns generalizing machine with
  | zero => rfl
  | succ turns inductionHypothesis =>
      refine Succeeds.bind rfl fun _ _ run => ?_
      cases run
      refine Succeeds.guard fun found => ?_
      have following := sound.numberAfter?_firstFrom machine.data.line
      have onward (pointer : DataPointer) :
          Succeeds (checkedNextItem turns) (nextItem turns) { machine with data := pointer } :=
        inductionHypothesis { sound with }
      dsimp only
      cases machine.data.offset with
      | none =>
          obtain ⟨code, first⟩ := sound.program.exists_code found
          refine Succeeds.bind_lift first ?_
          dsimp only
          rw [first]
          by_cases data : code = StatementWord.data.code
          · rw [if_pos data, if_pos (congrArg some data)]
            exact onward _
          · rw [if_neg data, if_neg fun same => data (Option.some.inj same)]
            exact Succeeds.bind_lift following (onward _)
      | some offset =>
          refine (succeeds_readItem _ _ _).bind fun (value, further) reached _ => ?_
          cases further with
          | some offset => rfl
          | none => exact Succeeds.bind_lift following rfl

theorem succeeds_fetchBlock (slot : Nat) :
    Succeeds (checkedFetchBlock slot) (fetchBlock slot) machine := by
  have room : 2 ≤ machine.config.programSize := by
    rw [sound.config_eq]
    exact sound.program.two_le
  unfold checkedFetchBlock fetchBlock
  split
  · refine Succeeds.bind rfl fun _ _ run => ?_
    cases run
    exact Succeeds.bind_lift (Image.checkedBuiltin_eq room) rfl
  · rfl

theorem succeeds_save (slot : Int) : Succeeds (checkedSave slot) (save slot) machine := by
  refine Succeeds.bind rfl fun number reached run => ?_
  have sound : reached.Sound config holds := by
    have kept := (sustains_slotNumber slot).kept sound
    rwa [run] at kept
  refine Succeeds.bind rfl fun _ _ run => ?_
  cases run
  refine Succeeds.bind_lift (Image.checkedEncode_eq sound.variableStore.counted) ?_
  dsimp only
  split
  · exact Succeeds.bind rfl fun _ _ _ => Succeeds.bind rfl fun outcome _ _ => by
      cases outcome <;> rfl
  · exact Succeeds.bind rfl fun outcome _ _ => by cases outcome <;> rfl

theorem succeeds_load (slot : Int) : Succeeds (checkedLoad slot) (load slot) machine := by
  refine Succeeds.bind rfl fun number reached run => ?_
  have sound : reached.Sound config holds := by
    have kept := (sustains_slotNumber slot).kept sound
    rwa [run] at kept
  refine (sound.succeeds_fetchBlock number).bind fun block reached _ => ?_
  refine Succeeds.bind rfl fun _ _ run => ?_
  cases run
  cases block with
  | error fault => exact Succeeds.bind_lift rfl rfl
  | ok bytes =>
      refine Succeeds.bind_lift (Image.checkedDecode_eq reached.config bytes) ?_
      have whole : (Except.ok bytes >>= Image.decode reached.config) =
          Image.decode reached.config bytes := rfl
      rw [whole]
      cases Image.decode reached.config bytes <;> rfl

end Sound

section
variable (upheld : Console.Upheld config.word savable holds) (sound : machine.Sound config holds)
include upheld sound

theorem Sound.succeeds_read (target : Target) :
    Succeeds (checkedRead target) (read target) machine := by
  refine Succeeds.bind rfl fun _ _ run => ?_
  cases run
  refine (sound.succeeds_nextItem _).bind fun value reached run => ?_
  have sound : reached.Sound config holds := by
    have kept := (upkeeps_nextItem upheld (machine.program.bytes.length + 2)).kept sound
    rwa [run] at kept
  refine Succeeds.guard fun _ => ?_
  exact succeeds_assign sound.variableStore.counted target value

/-- A sound command does the same with everything checked as it does with nothing checked. -/
theorem Sound.succeeds_perform (numbered : machine.line ≤ Line.maxNumber) {command : Command}
    (commandSound : command.Sound config.word) :
    Succeeds (checkedPerform command) (perform command) machine := by
  have counted := sound.variableStore.counted
  cases command with
  | list start =>
      refine Succeeds.bind rfl fun line reached run => ?_
      obtain ⟨_, rfl⟩ := Prod.mk.inj run
      exact sound.succeeds_list line
  | save slot => exact sound.succeeds_save slot
  | load slot => exact sound.succeeds_load slot
  | assign target value => exact succeeds_assign counted target value
  | gosub operand =>
      refine Succeeds.bind rfl fun line reached run => ?_
      obtain ⟨_, rfl⟩ := Prod.mk.inj run
      refine Succeeds.bind rfl fun _ _ run => ?_
      cases run
      refine Succeeds.bind_lift (checkedNextLineNumber_eq numbered) ?_
      exact Succeeds.bind rfl fun _ _ _ => rfl
  | loop name start limit =>
      obtain ⟨named, startFits, limitFits⟩ := commandSound
      refine (succeeds_tryVariables (Variables.succeeds_assignNumber name start _)).bind
        fun _ reached run => ?_
      have line : machine.line = reached.line := congrArg (fun outcome => outcome.2.line) run
      have sound : reached.Sound config holds := by
        have kept := (upkeeps_onVariables
          (Variables.sustains_assignNumber named startFits)).kept sound
        rwa [run] at kept
      refine Succeeds.bind rfl fun _ _ run => ?_
      cases run
      refine Succeeds.bind_lift (checkedNextLineNumber_eq (line ▸ numbered)) ?_
      exact succeeds_tryVariables (sound.variableStore.counted.succeeds_startLoop name limit _)
  | next name =>
      refine (succeeds_tryVariables (Variables.succeeds_stepLoop name _)).bind
        fun resume reached _ => ?_
      cases resume <;> rfl
  | dimension name maxIndex =>
      exact succeeds_tryVariables (counted.succeeds_declareArray name maxIndex)
  | read target => exact sound.succeeds_read upheld target
  | poke address value => exact succeeds_poke address value
  | run | new | clear | cont | input | goto | «return» | stop | restore | wait | beep | cls => rfl

end

end Machine
end HomeBasic
