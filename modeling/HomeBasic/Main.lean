import HomeBasic.Batch
import HomeBasic.Slot.Directory

/-!
# The command line

`FILE` is typed into a machine line by line and run, with its output on the
standard output. `--slots DIR` keeps the save slots in the files of a directory.

Here the steps of the machine meet the world: before each of them the clock is
set and a line is read if an entry waits for one, and after it what was printed
goes out, time passes, and saved blocks are written to their files.
-/

namespace HomeBasic
namespace CommandLine

/-- Slots in a directory, with the files that are still to be written. -/
structure Disk where
  slots : DirectorySlots
  unwritten : List (Nat × List Code)

instance : SlotStore Disk where
  slotCount disk := disk.slots.count
  read slot disk := (disk.slots.read slot, disk)
  persist slot block disk :=
    match disk.slots.persist slot block with
    | .ok slots =>
        (.ok (), ⟨slots, (slot, DirectorySlots.contentsOf block) :: disk.unwritten⟩)
    | .error fault => (.error fault, disk)

/-- The arguments that the program takes. -/
structure Arguments where
  file : Option String
  directory : Option String

/-- Reads the arguments; none if there are others. -/
def arguments? : List String → Arguments → Option Arguments
  | [], found => some found
  | "--slots" :: directory :: rest, found =>
      arguments? rest { found with directory := some directory }
  | file :: rest, found =>
      if found.file.isSome ∨ file.startsWith "-" then none
      else arguments? rest { found with file := some file }

/-- The name of the file of a slot. -/
def fileName (directory : String) (slot : Nat) : String :=
  directory ++ "/slot" ++ toString slot ++ ".bin"

/-- The contents of a file, if it is there. -/
def readFile? (name : String) : IO (Option ByteArray) := do
  try
    return some (← IO.FS.readBinFile name)
  catch
    | .noFileOrDirectory .. => return none
    | fault => throw fault

/-- Reads the slots of a directory, which is made if it is not there. -/
def openDisk (directory : String) (count : Nat) : IO Disk := do
  IO.FS.createDirAll directory
  let mut slots := DirectorySlots.empty count
  for slot in List.range count do
    match ← readFile? (fileName directory slot) with
    | some contents => slots := slots.writeFile slot contents.toList
    | none => pure ()
  return ⟨slots, []⟩

/-- Writes the files of saved blocks. -/
def writeDisk (directory : String) (disk : Disk) : IO Disk := do
  for (slot, contents) in disk.unwritten.reverse do
    IO.FS.writeBinFile (fileName directory slot) ⟨contents.toArray⟩
  return { disk with unwritten := [] }

section
variable {S : Type} [SlotStore S] (write : S → IO S)

/-- Lets out what was printed, and writes what was saved. -/
def letOut (machine : Machine (Teletype S)) : IO (Machine (Teletype S)) := do
  let console := machine.console
  if !console.printed.isEmpty then
    let output ← IO.getStdout
    output.putStr console.output
    output.flush
  if !console.complaints.isEmpty then
    let faults ← IO.getStderr
    faults.putStr console.faults
  let slots ← write console.slots
  return { machine with console := { console with printed := [], complaints := [], slots } }

/-- Reads a line, if an entry waits for one. -/
def letIn (machine : Machine (Teletype S)) : IO (Machine (Teletype S)) := do
  match machine.phase, machine.console.keys, machine.console.input with
  | .entering _, [], [] =>
      let line ← (← IO.getStdin).getLine
      if line.isEmpty then
        return machine
      return { machine with console := { machine.console with input := [line.toList] } }
  | _, _, _ => return machine

/-- Lets a machine go on until it is editing again. -/
partial def settle (machine : Machine (Teletype S)) : IO (Machine (Teletype S)) := do
  match machine.phase with
  | .editing => letOut write machine
  | _ =>
      let now ← IO.monoMsNow
      let machine ← letIn { machine with console := { machine.console with clock := now } }
      let machine ← letOut write machine.advance
      if now < machine.console.clock then
        IO.sleep (UInt32.ofNat (machine.console.clock - now))
      settle machine

/-- Types a line and enters it. -/
def enter (machine : Machine (Teletype S)) (line : List Char) : IO (Machine (Teletype S)) := do
  let machine := { machine with edit := machine.edit.clear }
  let keys := (line.filterMap Code.ofChar?).map Key.code
  let (_, machine) := machine.typeAll 0 keys
  let (accepted, machine) := machine.press .enter
  let machine ← settle write machine
  letOut write (Batch.noteRefusal line (accepted, machine))

/-- Runs the lines of a file. -/
def run (config : Config) (lines : List (List Char)) (slots : S) : IO Unit := do
  let now ← IO.monoMsNow
  let seed ← IO.rand 0 1000000000
  let console := { Teletype.start config [] seed slots with clock := now }
  let mut machine := Machine.start config console
  for line in lines do
    machine ← enter write machine line

end

/-- Says that a file cannot be read. -/
def refuse (fault : Batch.FileFault) : IO UInt32 := do
  (← IO.getStderr).putStr (Batch.fail fault ()).faults
  return 1

end CommandLine
end HomeBasic

open HomeBasic HomeBasic.CommandLine in
/-- Runs a file. -/
def main (words : List String) : IO UInt32 := do
  let config : Config := {}
  match arguments? words ⟨none, none⟩ with
  | some ⟨some file, directory⟩ =>
      let disk ← directory.mapM fun name => return (name, ← openDisk name config.slotCount)
      match ← readFile? file with
      | none => refuse .missing
      | some contents =>
          match Batch.linesOf contents with
          | .error fault => refuse fault
          | .ok lines =>
              match disk with
              | some (name, disk) => run (writeDisk name) config lines disk
              | none => run pure config lines (MemorySlots.empty config.slotCount)
              return 0
  | _ =>
      (← IO.getStderr).putStrLn "usage: FILE [--slots DIR]"
      return 2
