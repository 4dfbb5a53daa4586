import HomeBasic.Config
import HomeBasic.Console
import HomeBasic.Screen
import HomeBasic.Text.Lines

/-!
# A printing console

A console without a screen: what is printed goes out on an endless roll, and keys
are lines of text. The roll has no bottom, so the grid that keeps count of the
columns starts over where it would be full.
-/

namespace HomeBasic

/-- A console that prints on a roll and reads lines, over some slots. -/
structure Teletype (S : Type) where
  /-- The lines still to be read. -/
  input : List (List Char)
  /-- The keys of the line being read. -/
  keys : List Key
  /-- What was printed, the last character first. -/
  printed : List Char
  /-- What was said about faults, the last character first. -/
  complaints : List Char
  screen : Screen
  clock : Nat
  /-- The state that the next random number comes from. -/
  seed : Nat
  slots : S

namespace Teletype

variable {S : Type}

/-- A teletype that nothing was printed on yet. -/
def start (config : Config) (input : List (List Char)) (seed : Nat) (slots : S) : Teletype S where
  input
  keys := []
  printed := []
  complaints := []
  screen := Screen.blank config.width config.height
  clock := 0
  seed
  slots

/-- A text set in bold. -/
def bold (characters : List Char) : List Char :=
  ['\x1b', '[', '1', 'm'] ++ characters ++ ['\x1b', '[', '0', 'm']

/-- Prints characters on the roll. -/
def write (characters : List Char) (teletype : Teletype S) : Teletype S :=
  { teletype with printed := characters.reverse ++ teletype.printed }

/-- Says a line about a fault, in bold. -/
def complain (characters : List Char) (teletype : Teletype S) : Teletype S :=
  { teletype with
    complaints := '\n' :: ((bold characters).reverse ++ teletype.complaints) }

/-- The text printed so far. -/
def output (teletype : Teletype S) : String :=
  String.ofList teletype.printed.reverse

/-- The text of the faults so far. -/
def faults (teletype : Teletype S) : String :=
  String.ofList teletype.complaints.reverse

/-- The keys of a line of text. -/
def keysOf (line : List Char) : List Key :=
  ((Text.trimEnd line).filterMap Code.ofChar?).map .code ++ [.enter]

/-- The next key, of the line being read or else of the next one. -/
def nextKey (teletype : Teletype S) : Option Key × Teletype S :=
  match teletype.keys, teletype.input with
  | key :: keys, _ => (some key, { teletype with keys })
  | [], [] => (none, teletype)
  | [], line :: input =>
      match keysOf line with
      | [] => (none, { teletype with input })
      | key :: keys => (some key, { teletype with input, keys })

/-- Prints a code; the grid starts over if it is full, and the roll moves on at the end of a row. -/
def print (code : Code) (teletype : Teletype S) : Teletype S :=
  let screen := match teletype.screen.print? code with
    | some screen => screen
    | none => (teletype.screen.clear.print? code).getD teletype.screen.clear
  { teletype with screen }.write
    (if screen.column = 0 then [code.toChar, '\n'] else [code.toChar])

/-- Starts a new line; the grid starts over if it is full. -/
def newline (teletype : Teletype S) : Teletype S :=
  { teletype with screen := teletype.screen.newline?.getD teletype.screen.clear }.write ['\n']

/-- Moves to a place of the grid. The roll cannot move back, and carries on with a fresh line. -/
def moveTo? (row column : Nat) (teletype : Teletype S) : Option (Teletype S) :=
  (teletype.screen.moveTo? row column).map fun screen =>
    let before := teletype.screen
    let characters :=
      if row ≠ before.row ∨ column < before.column then '\n' :: List.replicate column ' '
      else List.replicate (column - before.column) ' '
    { teletype with screen }.write characters

/-- Prints a report on a line of its own, in bold if it tells of a fault. -/
def showReport (report : String) (teletype : Teletype S) : Teletype S :=
  let characters := report.toList
  let shown := if characters.head? = some '0' then characters else bold characters
  teletype.write
    ((if teletype.screen.column ≠ 0 then ['\n'] else []) ++ shown ++ ['\n'])

/-- A number from 1 to a largest, made of the seed by a linear congruence. -/
def random (largest : Int) (teletype : Teletype S) : Int × Teletype S :=
  let seed := (teletype.seed * 6364136223846793005 + 1442695040888963407) % 18446744073709551616
  (1 + ((seed / 4294967296 : Nat) : Int) % largest, { teletype with seed })

instance [SlotStore S] : Console (Teletype S) where
  slotCount teletype := SlotStore.slotCount teletype.slots
  read slot teletype :=
    let (result, slots) := SlotStore.read slot teletype.slots
    (result, { teletype with slots })
  persist slot block teletype :=
    let (result, slots) := SlotStore.persist slot block teletype.slots
    (result, { teletype with slots })
  nextKey := nextKey
  breakHeld teletype := (false, teletype)
  print? code teletype := some (teletype.print code)
  newline? teletype := some teletype.newline
  moveTo? := moveTo?
  column teletype := teletype.screen.column
  clear teletype := { teletype with screen := teletype.screen.clear }
  showEditLine _ teletype := teletype
  showReport := showReport
  notice message teletype := teletype.complain message.toList
  clock teletype := teletype.clock
  delay duration teletype := { teletype with clock := teletype.clock + duration }
  random := random
  startTone _ teletype := teletype
  stopTone teletype := teletype

end Teletype
end HomeBasic
