import HomeBasic.Machine.Basic
import HomeBasic.Slot.Image

/-!
# Commands

What each command does to a machine. An `INPUT`, a `WAIT` and a `BEEP` only put
the machine into the phase in which it takes its time.
-/

namespace HomeBasic
namespace Machine

variable {H : Type} [Console H]

/-- The line that a number means, if it is one of sixteen bits. -/
def lineNumber (value : Int) : Except Fault Nat :=
  if 0 ≤ value ∧ value < 65536 then .ok value.toNat else .error .arithmeticOverflow

/-- Lists the program from a line on. -/
def list (start : Nat) : Attempt (Machine H) Unit := do
  let machine ← get
  let lines := machine.program.linesAfter start
  onConsole (Printing.listings (lines.map (·.listing machine.config.word)))

/-- Puts a value in its place. -/
def assign (target : Target) (value : Value) : Attempt (Machine H) Unit :=
  match target, value with
  | .number name, .number value => onVariables (Variables.assignNumber name value)
  | .element name index, .number value => onVariables (Variables.assignElement name index value)
  | .text name, .text codes => onVariables (Variables.assignText name codes)
  | _, _ => throw .syntaxError

/-- Puts a byte into memory. -/
def poke (address value : Int) : Attempt (Machine H) Unit := do
  let machine ← get
  if address < 0 ∨ machine.memory.size ≤ address.toNat then
    throw .subscriptOutOfRange
  if value < 0 ∨ 255 < value then
    throw .arithmeticOverflow
  let memory := machine.memory.setIfInBounds address.toNat (UInt8.ofNat value.toNat)
  set { machine with memory }

/-! ## Data -/

/-- Evaluates the item at an offset of a statement; yields the offset of a further one too. -/
def readItem (program : Program) (body offset : Nat) :
    Attempt (Machine H) (Value × Option Nat) :=
  atDesk (.ofBytes program.bytes (body + offset)) fun environment => do
    let value ← Expression.evaluate environment .execute
    if (← Desk.look) = Code.comma then
      Desk.advance
      return (value, some ((← get).scanner.position - body))
    else
      return (value, none)

/--
Evaluates the next `DATA` item and moves the pointer past it. Every turn moves
the pointer on to an item or to a line.
-/
def nextItem : (turns : Nat) → Attempt (Machine H) Value
  | 0 => throw .subscriptOutOfRange
  | turns + 1 => do
      let machine ← get
      let start := (machine.program.find machine.data.line).1
      let number := machine.program.numberAt start
      if number = 0 then
        throw .subscriptOutOfRange
      let body := start + 2
      let move := fun (pointer : DataPointer) (machine : Machine H) =>
        { machine with data := pointer }
      match machine.data.offset with
      | none =>
          if machine.program.bytes[body]? = some StatementWord.data.code then
            modify (move ⟨number, some 1⟩)
          else
            modify (move (.fromLine (Line.numberAfter number)))
          nextItem turns
      | some offset =>
          let (value, further) ← readItem machine.program body offset
          match further with
          | some offset => modify (move ⟨number, some offset⟩)
          | none => modify (move (.fromLine (Line.numberAfter number)))
          return value

/-- Reads the next `DATA` item into a place. -/
def read (target : Target) : Attempt (Machine H) Unit := do
  let value ← nextItem ((← get).program.bytes.length + 2)
  if value.isText ≠ target.isText then
    throw .syntaxError
  assign target value

/-! ## Slots -/

/-- Tells of a failed transfer and stops. -/
def transferFailed {α : Type} (fault : SlotFault) : Attempt (Machine H) α := do
  tellConsole (Console.notice fault.message)
  throw fault.fault

/-- The slot that a number means. -/
def slotNumber (slot : Int) : Attempt (Machine H) Nat := do
  if 0 ≤ slot ∧ slot < SlotStore.slotCount (← get).console then
    return slot.toNat
  else
    throw .subscriptOutOfRange

/-- Saves the program and its variables. The built-in slot is read only. -/
def save (slot : Int) : Attempt (Machine H) Unit := do
  let slot ← slotNumber slot
  let machine ← get
  if slot = 0 then
    transferFailed .readOnly
  let block := Image.encode machine.config ⟨machine.program, machine.variableStore⟩
  match ← onConsole (Attempt.ofUpdate (SlotStore.persist slot block)) with
  | .ok () => return
  | .error fault => transferFailed fault

/-- The block of a slot; slot 0 holds the built-in program. -/
def fetchBlock (slot : Nat) : Attempt (Machine H) (Except SlotFault (List Code)) := do
  if slot = 0 then
    return .ok (Image.builtin (← get).config)
  else
    onConsole (Attempt.ofUpdate (SlotStore.read slot))

/-- Loads a program and its variables in place of those there are, and ends the run. -/
def load (slot : Int) : Attempt (Machine H) Unit := do
  let slot ← slotNumber slot
  let block ← fetchBlock slot
  let machine ← get
  match block >>= Image.decode machine.config with
  | .error fault => transferFailed fault
  | .ok image =>
      set <| goto 0
        { machine with
          program := image.program
          variableStore := image.variableStore
          returns := machine.returns.clear
          data := .fromLine 0
          resumeLine := 0 }

/-! ## Taking time -/

/-- Starts an `INPUT`, which only a program may do. -/
def startEntry (target : Target) : Attempt (Machine H) Unit := do
  let machine ← get
  if machine.phase ≠ .running then
    throw .inputNotInProgram
  set { machine with edit := machine.edit.clear, phase := .entering target }

/-- Starts to let time pass. -/
def startPause (duration : Int) (sounding : Bool) : Attempt (Machine H) Unit :=
  modify fun machine =>
    let deadline := Console.clock machine.console + duration.toNat
    { machine with phase := .pausing deadline sounding (machine.phase = .running) }

/-! ## All commands -/

/-- Carries out a command. -/
def perform : Command → Attempt (Machine H) Unit
  | .list start => do list (← Attempt.ofExcept (lineNumber (start.getD 0)))
  | .run start => do
      let start ← Attempt.ofExcept (lineNumber (start.getD 1))
      modify fun machine => machine.clearVariables.goto (max start 1)
  | .new => modify fun machine =>
      { machine with program := machine.program.clear }.clearVariables.goto 0
  | .clear => modify clearVariables
  | .cont => modify fun machine =>
      if machine.resumeLine = 0 then machine else machine.goto machine.resumeLine
  | .save slot => save slot
  | .load slot => load slot
  | .assign target value => assign target value
  | .input target => startEntry target
  | .goto line => do
      let line ← Attempt.ofExcept (lineNumber line)
      modify (goto line)
  | .gosub line => do
      let line ← Attempt.ofExcept (lineNumber line)
      let machine ← get
      let returns ← Attempt.ofExcept (machine.returns.push machine.nextLineNumber)
      set ({ machine with returns }.goto line)
  | .return => do
      let machine ← get
      match machine.returns.pop? with
      | some (line, returns) => set ({ machine with returns }.goto line)
      | none => throw .returnWithoutGosub
  | .loop name start limit => do
      onVariables (Variables.assignNumber name start)
      let machine ← get
      onVariables (Variables.startLoop name limit machine.nextLineNumber)
  | .next name => do
      match ← onVariables (Variables.stepLoop name) with
      | some line => modify (goto line)
      | none => return
  | .stop => throw .stopped
  | .dimension name maxIndex => onVariables (Variables.declareArray name maxIndex)
  | .read target => read target
  | .restore line => do
      let line ← Attempt.ofExcept (lineNumber (line.getD 0))
      modify fun machine => { machine with data := .fromLine line }
  | .poke address value => poke address value
  | .wait duration =>
      if duration < 0 then throw .arithmeticOverflow else startPause duration false
  | .beep duration pitch =>
      if duration < 0 then
        throw .arithmeticOverflow
      else do
        tellConsole (Console.startTone pitch)
        startPause duration true
  | .cls => tellConsole Console.clear

end Machine
end HomeBasic
