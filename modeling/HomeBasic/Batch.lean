import HomeBasic.Machine.Editor
import HomeBasic.Teletype

/-!
# Batches

A file of lines is typed into a machine at a teletype, and then the program is
run. Blank lines are left out. A line that the machine refuses is complained
about, and the others are typed all the same.
-/

namespace HomeBasic

namespace Batch

/-- The reasons for which a file cannot be read. -/
inductive FileFault
  | missing
  | notText
  deriving DecidableEq, Repr

/-- What the reader is told. -/
def FileFault.message : FileFault → String
  | missing => "No such file or directory (os error 2)"
  | notText => "stream did not contain valid UTF-8"

/-- The lines of a file that are typed in, and the command that runs them. -/
def linesOf (contents : ByteArray) : Except FileFault (List (List Char)) :=
  match String.fromUTF8? contents with
  | some text => .ok (Text.nonBlankLines text.toList ++ [['R', 'U', 'N']])
  | none => .error .notText

/-- What is said about a line that the machine refused. -/
def refusal (line : List Char) : List Char :=
  ['C', '/', '0', ' '] ++ line

variable {S : Type} [SlotStore S]

/-- Complains about a line if it was refused. -/
def noteRefusal (line : List Char) : Bool × Machine (Teletype S) → Machine (Teletype S)
  | (true, machine) => machine
  | (false, machine) =>
      { machine with console := machine.console.complain (refusal line) }

/-- Types lines one after the other, each of which may take at most so many steps. -/
def enterLines (steps : Nat) : List (List Char) → Machine (Teletype S) → Machine (Teletype S)
  | [], machine => machine
  | line :: rest, machine =>
      enterLines steps rest (noteRefusal line (machine.enter steps (String.ofList line)))

/-- How a batch ended: its exit code, what it printed and complained of, and its slots. -/
structure Ending (S : Type) where
  code : Nat
  output : String
  faults : String
  slots : S

/-- Ends a batch whose file cannot be read. -/
def fail (fault : FileFault) (slots : S) : Ending S :=
  ⟨1, "", String.ofList (Teletype.bold fault.message.toList ++ ['\n']), slots⟩

/-- Runs a file, if there is one, with an input, each line in at most so many steps. -/
def run (steps : Nat) (config : Config) (file : Option ByteArray) (input : String) (slots : S) :
    Ending S :=
  match file with
  | none => fail .missing slots
  | some contents =>
      match linesOf contents with
      | .error fault => fail fault slots
      | .ok lines =>
          let console := Teletype.start config (Text.lines input.toList) 0 slots
          let machine := enterLines steps lines (Machine.start config console)
          ⟨0, machine.console.output, machine.console.faults, machine.console.slots⟩

end Batch
end HomeBasic
