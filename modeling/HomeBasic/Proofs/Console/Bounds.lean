import HomeBasic.Proofs.Checked
import HomeBasic.Recorder

/-!
# Bounds of a recording console

A recorder prints into the cells of its screen and measures its tones on its clock. On a
screen with a column at least, whatever a recorder is used for (`Console.Used`), a cell is
there for the next code as long as the screen is not full, and no tone has started after
the time that it is.

Main statement: `Recorder.checked_of_used`.
-/

namespace HomeBasic

open Checked

/-! ## With everything checked -/

/-- Prints a code into the cell at the print position, unless the page is full. -/
def Screen.checkedPrint (screen : Screen) (code : Code) : Option (Option Screen) :=
  if screen.isFull then
    some none
  else do
    let _ ← screen.cells[screen.row * screen.width + screen.column]?
    return screen.print? code

/-- Ends the tone being played, if there is one. -/
def Recorder.checkedStopTone {S : Type} (recorder : Recorder S) : Option (Recorder S) :=
  match recorder.tone with
  | none => some recorder
  | some (pitch, since) => do
      let length ← difference? recorder.clock since
      return { recorder with tones := (pitch, length) :: recorder.tones, tone := none }

/-! ## Whatever a console is used for -/

/-- A console that another one may come to, whatever it is asked for and however often. -/
inductive Console.Used {H : Type} [Console H] (first : H) : H → Prop
  | unused : Used first first
  | nextKey {console : H} : Used first console → Used first (Console.nextKey console).2
  | breakHeld {console : H} : Used first console → Used first (Console.breakHeld console).2
  | print? {console changed : H} (code : Code) : Used first console →
      Console.print? code console = some changed → Used first changed
  | newline? {console changed : H} : Used first console →
      Console.newline? console = some changed → Used first changed
  | moveTo? {console changed : H} (row column : Nat) : Used first console →
      Console.moveTo? row column console = some changed → Used first changed
  | clear {console : H} : Used first console → Used first (Console.clear console)
  | showEditLine {console : H} (codes : List Code) : Used first console →
      Used first (Console.showEditLine codes console)
  | showReport {console : H} (report : String) : Used first console →
      Used first (Console.showReport report console)
  | notice {console : H} (message : String) : Used first console →
      Used first (Console.notice message console)
  | delay {console : H} (duration : Nat) : Used first console →
      Used first (Console.delay duration console)
  | random {console : H} (largest : Int) : Used first console →
      Used first (Console.random largest console).2
  | startTone {console : H} (pitch : Int) : Used first console →
      Used first (Console.startTone pitch console)
  | stopTone {console : H} : Used first console → Used first (Console.stopTone console)
  | read {console : H} (slot : Nat) : Used first console →
      Used first (SlotStore.read slot console).2
  | persist {console : H} (slot : Nat) (block : List Code) : Used first console →
      Used first (SlotStore.persist slot block console).2

/-! ## Screens -/

/-- The print position is in a column of the screen, and every column has its cells. -/
structure Screen.Placed (screen : Screen) : Prop where
  column : screen.column < screen.width
  cells : screen.cells.size = screen.width * screen.height

namespace Screen

variable {screen changed : Screen} {code : Code}

theorem placed_blank {width height : Nat} (wide : 1 ≤ width) : (blank width height).Placed :=
  ⟨wide, Array.size_replicate⟩

namespace Placed

variable (placed : screen.Placed)
include placed

theorem clear : screen.clear.Placed :=
  placed_blank (Nat.lt_of_le_of_lt (Nat.zero_le _) placed.column)

theorem print? (printed : screen.print? code = some changed) : changed.Placed := by
  have column := placed.column
  unfold Screen.print? at printed
  split at printed
  next => cases printed
  next =>
    dsimp only at printed
    split at printed
    next =>
      cases printed
      exact ⟨Nat.lt_of_le_of_lt (Nat.zero_le _) column, by simpa using placed.cells⟩
    next within =>
      cases printed
      exact ⟨by dsimp only; omega, by simpa using placed.cells⟩

theorem newline? (printed : screen.newline? = some changed) : changed.Placed := by
  unfold Screen.newline? at printed
  split at printed
  next => cases printed
  next =>
    cases printed
    exact ⟨Nat.lt_of_le_of_lt (Nat.zero_le _) placed.column, placed.cells⟩

theorem moveTo? {row column : Nat} (moved : screen.moveTo? row column = some changed) :
    changed.Placed := by
  unfold Screen.moveTo? at moved
  split at moved
  next inside =>
    cases moved
    exact ⟨inside.2, placed.cells⟩
  next => cases moved

/-- A screen that is not full has a cell for the next code. -/
theorem cell_lt (room : screen.row < screen.height) :
    screen.row * screen.width + screen.column < screen.cells.size := by
  have column := placed.column
  have rows : (screen.row + 1) * screen.width ≤ screen.height * screen.width :=
    Nat.mul_le_mul_right _ room
  rw [placed.cells, Nat.mul_comm screen.width]
  rw [Nat.succ_mul] at rows
  omega

theorem checkedPrint (code : Code) : screen.checkedPrint code = some (screen.print? code) := by
  unfold Screen.checkedPrint
  split
  next full => rw [Screen.print?, if_pos full]
  next room =>
    have inside := placed.cell_lt (Nat.lt_of_not_le fun full => room (decide_eq_true full))
    rw [Array.getElem?_eq_getElem inside]
    rfl

end Placed

end Screen

/-! ## Recorders -/

namespace Recorder

variable {S : Type} {recorder : Recorder S}

/-- The screen has its cells, and the tone has started by now. -/
structure Placed (recorder : Recorder S) : Prop where
  screen : recorder.screen.Placed
  tone : ∀ pitch since, recorder.tone = some (pitch, since) → since ≤ recorder.clock

theorem placed_start {config : Config} (wide : 1 ≤ config.width) (randoms : List Int)
    (slots : S) : (start config randoms slots).Placed :=
  ⟨Screen.placed_blank wide, nofun⟩

@[simp] theorem clock_stopTone (recorder : Recorder S) :
    recorder.stopTone.clock = recorder.clock := by
  unfold Recorder.stopTone
  split <;> rfl

theorem Placed.stopTone (placed : recorder.Placed) : recorder.stopTone.Placed := by
  unfold Recorder.stopTone
  split
  · exact placed
  · exact ⟨placed.screen, nofun⟩

theorem Placed.checkedStopTone (placed : recorder.Placed) :
    recorder.checkedStopTone = some recorder.stopTone := by
  unfold Recorder.checkedStopTone Recorder.stopTone
  rcases playing : recorder.tone with _ | ⟨pitch, since⟩
  · rfl
  · dsimp only
    rw [difference?_eq (placed.tone pitch since playing)]
    rfl

variable [SlotStore S]

theorem Placed.used (first : recorder.Placed) {reached : Recorder S}
    (used : Console.Used recorder reached) : reached.Placed := by
  induction used with
  | unused => exact first
  | @nextKey console _ placed =>
      rcases keys : console.keys with _ | ⟨key, rest⟩
      all_goals
        simp only [Console.nextKey, keys]
        exact ⟨placed.screen, placed.tone⟩
  | print? code _ printed placed =>
      obtain ⟨screen, shown, rfl⟩ := Option.map_eq_some_iff.mp printed
      exact ⟨placed.screen.print? shown, placed.tone⟩
  | newline? _ printed placed =>
      obtain ⟨screen, shown, rfl⟩ := Option.map_eq_some_iff.mp printed
      exact ⟨placed.screen.newline? shown, placed.tone⟩
  | moveTo? row column _ moved placed =>
      obtain ⟨screen, shown, rfl⟩ := Option.map_eq_some_iff.mp moved
      exact ⟨placed.screen.moveTo? shown, placed.tone⟩
  | clear _ placed => exact ⟨placed.screen.clear, placed.tone⟩
  | delay duration _ placed =>
      exact ⟨placed.screen, fun pitch since playing =>
        Nat.le_add_right_of_le (placed.tone pitch since playing)⟩
  | @startTone console pitch _ placed =>
      refine ⟨placed.stopTone.screen, fun other since playing => ?_⟩
      cases playing
      exact Nat.le_of_eq console.clock_stopTone.symm
  | stopTone _ placed => exact placed.stopTone
  | breakHeld _ placed | showEditLine _ _ placed | showReport _ _ placed | notice _ _ placed
  | random _ _ placed | read _ _ placed | persist _ _ _ placed =>
      exact ⟨placed.screen, placed.tone⟩

/-- Whatever a recorder is used for, no cell and no time is out of bounds. -/
theorem checked_of_used {config : Config} (wide : 1 ≤ config.width) {randoms : List Int}
    {slots : S} {reached : Recorder S}
    (used : Console.Used (start config randoms slots) reached) :
    (∀ code, reached.screen.checkedPrint code = some (reached.screen.print? code)) ∧
      reached.checkedStopTone = some reached.stopTone := by
  have placed := (placed_start wide randoms slots).used used
  exact ⟨placed.screen.checkedPrint, placed.checkedStopTone⟩

end Recorder
end HomeBasic
