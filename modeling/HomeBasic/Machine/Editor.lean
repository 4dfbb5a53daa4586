import HomeBasic.Machine.Run

/-!
# The line editor

Keys change the edit line, which is checked and shown after each of them. Enter
stores a line with a number, carries out one without, and lists the program for
a blank one; a line that does not check is refused and kept. Up and down bring
the lines of the program back for editing.
-/

namespace HomeBasic
namespace Machine

variable {H : Type} [Console H]

/-- A machine that was just started. -/
def start (config : Config) (console : H) : Machine H :=
  refreshEdit
    { config
      program := Program.empty config.programSize
      variableStore := Variables.empty config.word config.variablesSize
      memory := Array.replicate config.memorySize 0
      returns := BoundedStack.empty config.returnDepth
      data := .fromLine 0
      edit := EditLine.empty
      glyph := none
      console
      phase := .editing
      line := 0
      jump := none
      resumeLine := 0
      started := Console.clock console }

/-- Brings the line at an offset of the program back for editing. -/
def recallLine (offset : Nat) (machine : Machine H) : Machine H :=
  match machine.program.lineAt? offset with
  | none => machine
  | some line =>
      { machine with
        edit := { machine.edit with current := line.number }.setText
          (line.listing machine.config.word) }

/-- Brings back the line before the current one. -/
def recallPrevious (machine : Machine H) : Machine H :=
  match (machine.program.find machine.edit.current).2 with
  | some offset => machine.recallLine offset
  | none => machine

/-- Brings back the line after the current one. -/
def recallNext (machine : Machine H) : Machine H :=
  machine.recallLine (machine.program.find (min (machine.edit.current + 1) 65535)).1

/-- Lists the program for a blank line, as far as the display has room. -/
def submitBlank (machine : Machine H) : Machine H :=
  let machine :=
    { machine with edit := machine.edit.clear, console := Console.clear machine.console }
  (list 0 machine).2.refreshEdit

/-- Stores the statement of a numbered line. Without room for it the line is kept. -/
def submitNumbered (number : Nat) (statement : List Code) (machine : Machine H) :
    Bool × Machine H :=
  match machine.program.insert number statement with
  | .ok program =>
      let edit := { machine.edit with current := number }.clear
      (true, refreshEdit { machine with program, edit })
  | .error fault => (false, (machine.report fault.reportChar 0).refreshEdit)

/-- Sets out to carry out a direct line. -/
def submitDirect (statement : List Code) (machine : Machine H) : Machine H :=
  { machine with
    console := Console.clear machine.console
    phase := .direct statement
    line := 0
    jump := none }

/-- Enters the edit line; the answer tells whether it was taken. -/
def submit (machine : Machine H) : Bool × Machine H :=
  if machine.edit.isBlank then
    (true, machine.submitBlank)
  else
    let edit := machine.edit.refresh
    let verdict := edit.check machine.config
    let machine := { machine with edit, glyph := verdict.glyph }
    match verdict.result with
    | .error _ => (false, machine.refreshEdit)
    | .ok 0 => (true, machine.submitDirect (edit.statement verdict))
    | .ok number => machine.submitNumbered number (edit.statement verdict)

/--
Takes a key for the edit line; the answer is false when enter was refused. After
it the machine may be on its way through a line, and settles by advancing.
-/
def press (key : Key) (machine : Machine H) : Bool × Machine H :=
  match key with
  | .enter => machine.submit
  | .up => (true, machine.recallPrevious.refreshEdit)
  | .down => (true, machine.recallNext.refreshEdit)
  | key => (true, refreshEdit { machine with edit := editKey key machine.edit })

/-- Takes a key and settles, in at most so many steps. -/
def type (steps : Nat) (key : Key) (machine : Machine H) : Bool × Machine H :=
  let (accepted, machine) := machine.press key
  (accepted, machine.settle steps)

/-- Takes keys one after the other; the answers tell which of them were taken. -/
def typeAll (steps : Nat) : List Key → Machine H → List Bool × Machine H
  | [], machine => ([], machine)
  | key :: rest, machine =>
      let (accepted, machine) := machine.type steps key
      let (others, machine) := typeAll steps rest machine
      (accepted :: others, machine)

/-- Types a whole line in place of the edit line and enters it. -/
def enter (steps : Nat) (text : String) (machine : Machine H) : Bool × Machine H :=
  let machine := { machine with edit := machine.edit.clear }
  let (_, machine) := machine.typeAll steps ((Code.encode text).map .code)
  machine.type steps .enter

/-- Takes the keys of the console, at most so many, until there are no more. -/
def feed (steps : Nat) : (keys : Nat) → Machine H → Machine H
  | 0, machine => machine
  | keys + 1, machine =>
      match Console.nextKey machine.console with
      | (none, console) => { machine with console }
      | (some key, console) => feed steps keys ({ machine with console }.type steps key).2

end Machine
end HomeBasic
