import HomeBasic.Slot.Store

/-!
# Consoles

A machine is used through a console: keys, a display with an edit line and a
report below it, a clock, sound, random numbers, and slots to save to. Printing
on a full display is refused and changes nothing.
-/

namespace HomeBasic

/-- The keys of a console. -/
inductive Key
  | code (code : Code)
  | left
  | right
  | up
  | down
  | delete
  | enter
  | break
  deriving DecidableEq, Repr, Inhabited

/-- What a machine is used through. -/
class Console (H : Type) extends SlotStore H where
  /-- The next key; none once there will be no more. -/
  nextKey : H → Option Key × H
  /-- Whether the break key is down. -/
  breakHeld : H → Bool × H
  /-- Prints a code, unless the display is full. -/
  print? : Code → H → Option H
  /-- Starts a new line, unless the display is full. -/
  newline? : H → Option H
  /-- Moves the print position, unless there is no such place. -/
  moveTo? : (row column : Nat) → H → Option H
  /-- The column where the next code is printed. -/
  column : H → Nat
  /-- Empties the display. -/
  clear : H → H
  /-- Shows the edit line. -/
  showEditLine : List Code → H → H
  /-- Shows a report below the display. -/
  showReport : String → H → H
  /-- Says more about a failed transfer. -/
  notice : String → H → H
  /-- Milliseconds since some start. -/
  clock : H → Nat
  /-- Lets milliseconds pass. -/
  delay : Nat → H → H
  /-- A number from 1 to a largest. -/
  random : Int → H → Int × H
  /-- Starts a tone of a pitch. -/
  startTone : Int → H → H
  /-- Ends the tone. -/
  stopTone : H → H

/-- A console that shows nothing and has no keys, for checking a line. -/
structure NoConsole where
  deriving DecidableEq, Repr, Inhabited

instance : Console NoConsole where
  slotCount _ := 0
  read slot console := (.error (.noSuchSlot slot), console)
  persist slot _ console := (.error (.noSuchSlot slot), console)
  nextKey console := (none, console)
  breakHeld console := (false, console)
  print? _ console := some console
  newline? console := some console
  moveTo? _ _ console := some console
  column _ := 0
  clear console := console
  showEditLine _ console := console
  showReport _ console := console
  notice _ console := console
  clock _ := 0
  delay _ console := console
  random largest console := (largest, console)
  startTone _ console := console
  stopTone console := console

end HomeBasic
