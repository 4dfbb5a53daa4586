import HomeBasic.Machine.Commands

/-!
# Runs

A machine moves in single steps: a line, a key of an entry, a look at the break
key while time passes. Between two lines of a program it looks at the break key.
However a line or a run ends, its end is reported and the edit line is taken up
again.
-/

namespace HomeBasic
namespace Machine

variable {H : Type} [Console H]

/-- Checks the edit line as it stands and shows it with its cursor and any fault. -/
def refreshEdit (machine : Machine H) : Machine H :=
  let edit := machine.edit.refresh
  let verdict := edit.check machine.config
  let edit := match verdict.result with
    | .ok _ => edit
    | .error (_, position) => edit.mark position
  { machine with
    edit
    glyph := verdict.glyph
    console := Console.showEditLine (edit.render verdict.shownGlyph) machine.console }

/-- Shows how a line or a run ended. -/
def report (character : Char) (line : Nat) (machine : Machine H) : Machine H :=
  { machine with console := Console.showReport (reportText character line) machine.console }

/--
Ends a direct line or a run. A stop reports the line it would go on at; any fault
is remembered for `CONT`, and a run that ends well leaves nothing to go on with.
-/
def conclude (inProgram : Bool) (outcome : Except Fault Unit) (machine : Machine H) :
    Machine H :=
  let (character, line, resumeLine) := match outcome with
    | .ok () => ('0', machine.line, if inProgram then 0 else machine.resumeLine)
    | .error .stopped =>
        (Fault.stopped.reportChar, machine.nextLineNumber, machine.nextLineNumber)
    | .error fault => (fault.reportChar, machine.line, machine.line)
  let machine := machine.report character line
  refreshEdit
    { machine with
      resumeLine
      jump := none
      phase := .editing
      edit := machine.edit.clear }

/-- Goes on after a line that ended well. -/
def lineDone (inProgram : Bool) (machine : Machine H) : Machine H :=
  if inProgram then
    let (held, console) := Console.breakHeld machine.console
    let machine := { machine with console }
    if held then machine.conclude true (.error .stopped)
    else { machine with phase := .running }
  else if machine.jump.isSome then
    { machine with phase := .running }
  else
    machine.conclude false (.ok ())

/-- Goes on after a step: a line that takes its time is not done yet. -/
def proceed (inProgram : Bool) : Except Fault Unit × Machine H → Machine H
  | (.error fault, machine) => machine.conclude inProgram (.error fault)
  | (.ok (), machine) =>
      match machine.phase with
      | .entering _ | .pausing .. => machine
      | _ => machine.lineDone inProgram

/-- Carries out the line at a scanner. -/
def carryOut (scanner : Scanner) : Attempt (Machine H) Unit := do
  match ← atDesk scanner fun environment => Statement.line environment .execute with
  | some command => perform command
  | none => return

/-- The number of the line to carry out next, zero at the end of the program. -/
def upcoming (machine : Machine H) : Nat :=
  match machine.jump with
  | some 0 => 0
  | some target => machine.program.firstFrom target
  | none => machine.nextLineNumber

/-- Carries out the next line of the program, if there is one. -/
def advanceProgram (machine : Machine H) : Machine H :=
  let number := machine.upcoming
  let machine := { machine with jump := none }
  if number = 0 then
    machine.conclude true (.ok ())
  else
    let start := (machine.program.find number).1
    proceed true
      (carryOut (.ofBytes machine.program.bytes (start + 2)) { machine with line := number })

/-! ## Entries -/

/-- What comes of the enter key: a value, or nothing that can be used yet. -/
inductive Entered
  | value (value : Value)
  | unusable
  | failed (fault : Fault)

/-- Evaluates the expression that fills the edit line; with a fault comes the place it was found. -/
def entryNumber (environment : Environment) : Attempt (Desk H) (Except (Fault × Nat) Int) :=
  let entry : Attempt (Desk H) Int := do
    let value ← Expression.evaluate environment .execute
    Desk.expectEnd
    match value with
    | .number value => return value
    | .text _ => throw .syntaxError
  fun desk =>
    match entry desk with
    | (.ok value, desk) => (.ok (.ok value), desk)
    | (.error fault, desk) => (.ok (.error (fault, desk.scanner.position)), desk)

/-- Takes the edit line as an entry, or marks where it cannot be one. -/
def takeEntry (isText : Bool) (machine : Machine H) : Entered × Machine H :=
  let edit := machine.edit.refresh
  let machine := { machine with edit }
  if isText then
    match edit.text.findIdx? (· == Code.quote) with
    | some column => (.unusable, { machine with edit := edit.markColumn column })
    | none => (.value (.text edit.text), machine)
  else
    match atDesk (.ofBytes edit.bytes 0) entryNumber machine with
    | (.ok (.ok value), machine) => (.value (.number value), machine)
    | (.ok (.error (.syntaxError, position)), machine) =>
        (.unusable, { machine with edit := machine.edit.mark position })
    | (.ok (.error (fault, _)), machine) => (.failed fault, machine)
    | (.error fault, machine) => (.failed fault, machine)

/-- Changes the edit line as a key says that does not enter it. -/
def editKey (key : Key) (edit : EditLine) : EditLine :=
  match key with
  | .code code => edit.insert code
  | .delete => edit.backspace
  | .left => edit.left
  | .right => edit.right
  | .break => edit.clear
  | .up | .down | .enter => edit

/-- Shows the edit line with a glyph. -/
def showEdit (glyph : Glyph) (machine : Machine H) : Machine H :=
  { machine with console := Console.showEditLine (machine.edit.render glyph) machine.console }

/-- Ends an entry: the edit line is left empty, whatever comes of it. -/
def endEntry (machine : Machine H) : Machine H :=
  let machine := { machine with edit := machine.edit.clear, phase := .running }
  machine.showEdit (machine.glyph.getD .letter)

/-- Takes a key for an entry. -/
def advanceEntry (target : Target) (machine : Machine H) : Machine H :=
  let machine := machine.showEdit .letter
  let (key, console) := Console.nextKey machine.console
  let machine := { machine with console }
  match key with
  | none | some .break => machine.endEntry.conclude true (.error .stopped)
  | some .enter =>
      match machine.takeEntry target.isText with
      | (.value value, machine) => proceed true (assign target value machine.endEntry)
      | (.unusable, machine) => machine
      | (.failed fault, machine) => machine.endEntry.conclude true (.error fault)
  | some .up | some .down => machine
  | some key => { machine with edit := editKey key machine.edit }

/-! ## Time -/

/-- Ends a pause, and the tone with it. -/
def endPause (sounding : Bool) (machine : Machine H) : Machine H :=
  if sounding then { machine with console := Console.stopTone machine.console } else machine

/-- Lets some time pass up to a deadline, with a look at the break key before. -/
def advancePause (deadline : Nat) (sounding inProgram : Bool) (machine : Machine H) :
    Machine H :=
  let now := Console.clock machine.console
  if deadline ≤ now then
    (machine.endPause sounding).lineDone inProgram
  else
    let (held, console) := Console.breakHeld machine.console
    let machine := { machine with console }
    if held then
      (machine.endPause sounding).conclude inProgram (.error .stopped)
    else
      let slice := min (deadline - now) machine.config.breakInterval
      { machine with console := Console.delay slice machine.console }

/-! ## Steps -/

/-- A single step; a machine that is editing stays as it is. -/
def advance (machine : Machine H) : Machine H :=
  match machine.phase with
  | .editing => machine
  | .direct statement => proceed false (carryOut (.ofBytes statement 0) machine)
  | .running => machine.advanceProgram
  | .entering target => machine.advanceEntry target
  | .pausing deadline sounding inProgram => machine.advancePause deadline sounding inProgram

/-- At most so many steps, up to the next time the machine is editing. -/
def settle : (steps : Nat) → Machine H → Machine H
  | 0, machine => machine
  | steps + 1, machine =>
      match machine.phase with
      | .editing => machine
      | _ => settle steps machine.advance

end Machine
end HomeBasic
