import HomeBasic.Config
import HomeBasic.Console
import HomeBasic.Screen

/-!
# A recording console

A console that plays back keys and remembers what it is told. Time passes only
while the machine waits. The break key is held from a time on the clock, or from
a number of looks at it; random numbers come from a list.
-/

namespace HomeBasic

/-- A console that plays back keys and records what is shown, over some slots. -/
structure Recorder (S : Type) where
  /-- The keys still to come. -/
  keys : List Key
  screen : Screen
  /-- What was printed and reported, the last character first. -/
  transcript : List Char
  /-- The edit line as it was shown last. -/
  editLine : List Code
  /-- Every edit line that was shown, the last one first. -/
  shown : List (List Code)
  /-- The messages about failed transfers, the last one first. -/
  notices : List String
  /-- The tones that were played with their lengths, the last one first. -/
  tones : List (Int × Nat)
  /-- The tone being played, and the time it started. -/
  tone : Option (Int × Nat)
  clock : Nat
  /-- The time from which the break key is held. -/
  breakAt : Option Nat
  /-- How often the break key was looked at. -/
  looks : Nat
  /-- The looks after which the break key is held. -/
  breakAfter : Nat
  /-- The numbers that random numbers are made of; zeros follow. -/
  randoms : List Int
  slots : S

namespace Recorder

variable {S : Type}

/-- A recorder that nothing was shown on yet. -/
def start (config : Config) (randoms : List Int) (slots : S) : Recorder S where
  keys := []
  screen := Screen.blank config.width config.height
  transcript := []
  editLine := []
  shown := []
  notices := []
  tones := []
  tone := none
  clock := 0
  breakAt := none
  looks := 0
  breakAfter := 10000
  randoms
  slots

/-- The text printed and reported. -/
def text (recorder : Recorder S) : String :=
  String.ofList recorder.transcript.reverse

/-- A shown edit line as text, its inverted codes in brackets. -/
def spell (codes : List Code) : String :=
  String.ofList <| codes.flatMap fun code =>
    if code.isInverse then ['[', code.toChar, ']'] else [code.toChar]

/-- Forgets what was printed and shown, and counts the looks at the break key from the start. -/
def newPage (recorder : Recorder S) (breakAfter : Nat) : Recorder S :=
  { recorder with transcript := [], shown := [], looks := 0, breakAfter }

/-- Adds keys to those still to come. -/
def queue (recorder : Recorder S) (keys : List Key) : Recorder S :=
  { recorder with keys := recorder.keys ++ keys }

/-- Ends the tone being played, if there is one. -/
def stopTone (recorder : Recorder S) : Recorder S :=
  match recorder.tone with
  | none => recorder
  | some (pitch, since) =>
      { recorder with
        tones := (pitch, recorder.clock - since) :: recorder.tones
        tone := none }

/-- The next number of the list, brought into the range from 1 to a largest. -/
def random (largest : Int) (recorder : Recorder S) : Int × Recorder S :=
  (1 + recorder.randoms.headD 0 % largest, { recorder with randoms := recorder.randoms.tail })

instance [SlotStore S] : Console (Recorder S) where
  slotCount recorder := SlotStore.slotCount recorder.slots
  read slot recorder :=
    let (result, slots) := SlotStore.read slot recorder.slots
    (result, { recorder with slots })
  persist slot block recorder :=
    let (result, slots) := SlotStore.persist slot block recorder.slots
    (result, { recorder with slots })
  nextKey recorder :=
    match recorder.keys with
    | [] => (none, recorder)
    | key :: keys => (some key, { recorder with keys })
  breakHeld recorder :=
    let looks := recorder.looks + 1
    (recorder.breakAt.any (· ≤ recorder.clock) || recorder.breakAfter < looks,
      { recorder with looks })
  print? code recorder :=
    (recorder.screen.print? code).map fun screen =>
      { recorder with screen, transcript := code.toChar :: recorder.transcript }
  newline? recorder :=
    recorder.screen.newline?.map fun screen =>
      { recorder with screen, transcript := '\n' :: recorder.transcript }
  moveTo? row column recorder :=
    (recorder.screen.moveTo? row column).map fun screen => { recorder with screen }
  column recorder := recorder.screen.column
  clear recorder := { recorder with screen := recorder.screen.clear }
  showEditLine codes recorder :=
    { recorder with editLine := codes, shown := codes :: recorder.shown }
  showReport report recorder :=
    let before := match recorder.transcript with
      | [] => []
      | '\n' :: rest => '\n' :: rest
      | characters => '\n' :: characters
    { recorder with transcript := '\n' :: (report.toList.reverse ++ before) }
  notice message recorder := { recorder with notices := message :: recorder.notices }
  clock recorder := recorder.clock
  delay duration recorder := { recorder with clock := recorder.clock + duration }
  random := Recorder.random
  startTone pitch recorder := { recorder.stopTone with tone := some (pitch, recorder.clock) }
  stopTone := Recorder.stopTone

end Recorder
end HomeBasic
