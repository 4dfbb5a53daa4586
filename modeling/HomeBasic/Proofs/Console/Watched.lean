import HomeBasic.Proofs.Console.Kindred
import HomeBasic.Proofs.Statement.Marks
import Mathlib.Data.List.Chain

/-!
# A teletype that is watched

The roll of a teletype has no columns of its own: where the next character goes is told by how
many went out since the last new line. Beside it a grid keeps count of the columns, and what a
program prints is placed by the grid. A watched teletype records whenever something is done to
either of them, with the columns before and after (`Watched`). That it is watched makes no
difference to what it does (`Watched.reporting`).

The record keeps to a few laws (`Lawful`). What is printed leaves roll and grid in the same
column if it found them there; a report ends the line of the roll, whatever the grid counts; and
a display that is emptied goes back to its first column, whatever is on the roll.

Main statement: roll and grid are in the same column whenever something is printed, unless it
is printed right after the display was emptied in the middle of a line (`Lawful.aligned_iff`).
-/

namespace HomeBasic

theorem Code.toChar_ne_newline (code : Code) : code.toChar ≠ '\n' := by
  have every : ∀ value : Fin 64, Char.ofNat (value.val + 0x20) ≠ '\n' := by
    decide
  have bound : (code &&& 0x3F).toNat < 64 := by
    rw [UInt8.toNat_and]
    exact Nat.lt_of_le_of_lt Nat.and_le_right (by decide)
  exact every ⟨_, bound⟩

namespace Screen

/-- A full page is at the start of a row. -/
def EndsEven (screen : Screen) : Prop :=
  screen.isFull = true → screen.column = 0

variable {screen changed : Screen} {code : Code}

theorem endsEven_clear (screen : Screen) : screen.clear.EndsEven :=
  fun _ => rfl

theorem endsEven_moveTo? {row column : Nat} (moved : screen.moveTo? row column = some changed) :
    changed.EndsEven := by
  obtain ⟨inside, rfl⟩ := moveTo?_eq_some moved
  exact fun full => absurd (of_decide_eq_true full) (Nat.not_le.mpr inside.1)

/-- Printing goes on by a column, or to the start of the next row. -/
theorem column_of_print? (printed : screen.print? code = some changed) :
    changed.EndsEven ∧ (changed.column = 0 ∨ changed.column = screen.column + 1) := by
  unfold print? at printed
  split at printed
  next => cases printed
  next room =>
    dsimp only at printed
    split at printed
    next =>
      cases printed
      exact ⟨fun _ => rfl, .inl rfl⟩
    next =>
      cases printed
      exact ⟨fun full => absurd full room, .inr rfl⟩

end Screen

namespace Teletype

variable {S : Type}

/-! ## Columns -/

/-- The column where the next character goes, behind what was printed, the last character
first. -/
def rollColumn (printed : List Char) : Nat :=
  (printed.takeWhile (· ≠ '\n')).length

theorem rollColumn_cons {character : Char} (inLine : character ≠ '\n') (printed : List Char) :
    rollColumn (character :: printed) = rollColumn printed + 1 := by
  simp [rollColumn, inLine]

theorem rollColumn_newline (printed : List Char) : rollColumn ('\n' :: printed) = 0 :=
  rfl

theorem rollColumn_spaces (count : Nat) (printed : List Char) :
    rollColumn (List.replicate count ' ' ++ printed) = count + rollColumn printed := by
  induction count with
  | zero => exact (Nat.zero_add _).symm
  | succ count inductionHypothesis =>
      rw [List.replicate_succ, List.cons_append, rollColumn_cons (by decide), inductionHypothesis]
      omega

/-- The columns where the next character goes, on the roll and on the grid. -/
structure Columns where
  roll : Nat
  grid : Nat
  deriving DecidableEq, Repr

/-- Roll and grid are in the same column. -/
def Columns.Aligned (columns : Columns) : Prop :=
  columns.roll = columns.grid

instance : DecidablePred Columns.Aligned :=
  fun columns => inferInstanceAs (Decidable (columns.roll = columns.grid))

/-- The columns of a teletype. -/
def columns (teletype : Teletype S) : Columns :=
  ⟨rollColumn teletype.printed, teletype.screen.column⟩

/-! ## What keeps the columns aligned -/

/-- A code goes to the next column of the grid, which begins a row or starts over if need be. -/
theorem exists_print {teletype : Teletype S} (even : teletype.screen.EndsEven) (code : Code) :
    ∃ screen : Screen, screen.EndsEven ∧
      (screen.column = 0 ∨ screen.column = teletype.screen.column + 1) ∧
      teletype.print code = { teletype with screen }.write
        (if screen.column = 0 then [code.toChar, '\n'] else [code.toChar]) := by
  cases shown : teletype.screen.print? code with
  | some screen =>
      obtain ⟨even, column⟩ := Screen.column_of_print? shown
      exact ⟨screen, even, column, by rw [print, shown]⟩
  | none =>
      have start : teletype.screen.column = 0 :=
        even (decide_eq_true (Screen.print?_eq_none_iff.mp shown))
      cases again : teletype.screen.clear.print? code with
      | some screen =>
          obtain ⟨even, column⟩ := Screen.column_of_print? again
          exact ⟨screen, even, by rwa [start], by rw [print, shown, again]; rfl⟩
      | none =>
          exact ⟨_, teletype.screen.endsEven_clear, .inl rfl, by rw [print, shown, again]; rfl⟩

theorem aligned_print {teletype : Teletype S} (even : teletype.screen.EndsEven)
    (aligned : teletype.columns.Aligned) (code : Code) :
    (teletype.print code).columns.Aligned := by
  obtain ⟨screen, -, column, print⟩ := exists_print even code
  rw [print]
  by_cases start : screen.column = 0
  · rw [if_pos start]
    exact start.symm
  · have next : screen.column = teletype.screen.column + 1 := column.resolve_left start
    rw [if_neg start]
    change rollColumn (code.toChar :: teletype.printed) = screen.column
    rw [rollColumn_cons code.toChar_ne_newline, next]
    exact congrArg (· + 1) aligned

theorem column_newline (teletype : Teletype S) : teletype.newline.screen.column = 0 := by
  unfold newline
  cases printed : teletype.screen.newline? with
  | some screen =>
      obtain ⟨-, rfl⟩ := Screen.newline?_eq_some printed
      rfl
  | none => rfl

theorem aligned_newline (teletype : Teletype S) : teletype.newline.columns.Aligned :=
  (column_newline teletype).symm

theorem aligned_moveTo? {teletype moved : Teletype S} {row column : Nat}
    (aligned : teletype.columns.Aligned) (move : teletype.moveTo? row column = some moved) :
    moved.columns.Aligned := by
  obtain ⟨screen, placed, rfl⟩ := Option.map_eq_some_iff.mp move
  obtain ⟨-, rfl⟩ := Screen.moveTo?_eq_some placed
  have counted : rollColumn teletype.printed = teletype.screen.column := aligned
  dsimp only
  split
  · change rollColumn (('\n' :: List.replicate column ' ').reverse ++ teletype.printed) = column
    rw [List.reverse_cons, List.reverse_replicate, List.append_assoc, rollColumn_spaces,
      List.singleton_append, rollColumn_newline, Nat.add_zero]
  next onward =>
    change rollColumn ((List.replicate (column - teletype.screen.column) ' ').reverse ++
      teletype.printed) = column
    rw [List.reverse_replicate, rollColumn_spaces, counted]
    omega

/-- A report ends its line of the roll. -/
theorem columns_showReport (report : String) (teletype : Teletype S) :
    (teletype.showReport report).columns = ⟨0, teletype.screen.column⟩ := by
  unfold showReport columns write
  dsimp only
  rw [List.reverse_append]
  rfl

theorem aside_nextKey (teletype : Teletype S) :
    teletype.nextKey.2.printed = teletype.printed ∧
      teletype.nextKey.2.screen = teletype.screen := by
  unfold nextKey
  split
  · exact ⟨rfl, rfl⟩
  · exact ⟨rfl, rfl⟩
  · split
    · exact ⟨rfl, rfl⟩
    · exact ⟨rfl, rfl⟩

theorem aside_random (largest : Int) (teletype : Teletype S) :
    (teletype.random largest).2.printed = teletype.printed ∧
      (teletype.random largest).2.screen = teletype.screen := by
  obtain ⟨number, seed, run⟩ : ∃ (number : Int) (seed : Nat),
      teletype.random largest = (number, { teletype with seed }) := ⟨_, _, rfl⟩
  rw [run]
  exact ⟨rfl, rfl⟩

/-! ## What is recorded -/

/-- What is done to roll and grid: a code, a new line or a print position is output, the
display is emptied, or a report is shown. -/
inductive Deed
  | output
  | clear
  | report
  deriving DecidableEq, Repr

/-- Something that was done, and the columns before and after it. -/
structure Moment where
  deed : Deed
  before : Columns
  after : Columns
  deriving DecidableEq, Repr

/-- Roll and grid are in the same column before and after. -/
def Moment.Aligned (moment : Moment) : Prop :=
  moment.before.Aligned ∧ moment.after.Aligned

/-- If something is output right after the display was emptied, the roll was at the start of
a line then. -/
def Moment.Follows (later earlier : Moment) : Prop :=
  later.deed = .output → earlier.deed = .clear → earlier.before.roll = 0

instance : DecidableRel Moment.Follows :=
  fun later earlier =>
    inferInstanceAs (Decidable (later.deed = .output → earlier.deed = .clear →
      earlier.before.roll = 0))

/--
The laws of a record, the last moment first, and the columns that it leads to. Nothing is
output after a report before the display was emptied.
-/
inductive Lawful : List Moment → Columns → Prop
  | nil : Lawful [] ⟨0, 0⟩
  | output {record : List Moment} {before after : Columns} :
      Lawful record before → (∀ last ∈ record.head?, last.deed ≠ .report) →
      (before.Aligned → after.Aligned) → Lawful (⟨.output, before, after⟩ :: record) after
  | clear {record : List Moment} {before : Columns} :
      Lawful record before →
      Lawful (⟨.clear, before, ⟨before.roll, 0⟩⟩ :: record) ⟨before.roll, 0⟩
  | report {record : List Moment} {before : Columns} :
      Lawful record before →
      Lawful (⟨.report, before, ⟨0, before.grid⟩⟩ :: record) ⟨0, before.grid⟩

namespace Lawful

variable {record : List Moment} {columns : Columns}

/-- Something is output in the same column of roll and grid unless the display was emptied
right before, in the middle of a line. -/
theorem aligned_iff_head (lawful : Lawful record columns)
    (unreported : ∀ last ∈ record.head?, last.deed ≠ .report)
    (aligned : ∀ moment ∈ record, moment.deed = .output → moment.Aligned) :
    columns.Aligned ↔ ∀ last ∈ record.head?, last.deed = .clear → last.before.roll = 0 := by
  cases lawful with
  | nil => exact ⟨fun _ => nofun, fun _ => rfl⟩
  | @output record before after _ _ _ =>
      have last := (aligned _ List.mem_cons_self rfl).2
      refine ⟨fun _ moment member cleared => ?_, fun _ => last⟩
      cases member
      cases cleared
  | @clear record before _ =>
      refine ⟨fun aligned moment member _ => ?_, fun start => start _ rfl rfl⟩
      cases member
      exact aligned
  | report _ => exact absurd rfl (unreported _ rfl)

/-- By induction on the record, for each moment from what was recorded before it. -/
theorem aligned_iff (lawful : Lawful record columns) :
    (∀ moment ∈ record, moment.deed = .output → moment.Aligned) ↔
      record.IsChain Moment.Follows := by
  induction lawful with
  | nil => exact ⟨fun _ => .nil, fun _ => nofun⟩
  | @output record before after lawful unreported keeps inductionHypothesis =>
      rw [List.forall_mem_cons, List.isChain_cons, inductionHypothesis]
      refine and_congr_left fun chain => ?_
      have head := lawful.aligned_iff_head unreported (inductionHypothesis.mpr chain)
      constructor
      · intro aligned last member _
        exact head.mp (aligned rfl).1 last member
      · intro follows _
        have before := head.mpr fun last member => follows last member rfl
        exact ⟨before, keeps before⟩
  | @clear record before lawful inductionHypothesis =>
      rw [List.forall_mem_cons, List.isChain_cons, inductionHypothesis]
      exact and_congr_left fun _ => ⟨fun _ _ _ => nofun, fun _ => nofun⟩
  | @report record before lawful inductionHypothesis =>
      rw [List.forall_mem_cons, List.isChain_cons, inductionHypothesis]
      exact and_congr_left fun _ => ⟨fun _ _ _ => nofun, fun _ => nofun⟩

end Lawful

end Teletype

/-! ## A teletype that is watched -/

open Teletype (Columns Deed Lawful Moment)

/-- A teletype with a record of what was done to its columns, the last moment first. -/
structure Watched (S : Type) where
  teletype : Teletype S
  record : List Moment

namespace Watched

variable {S : Type}

/-- The teletype comes to another state, and it is recorded how. -/
def note (watched : Watched S) (deed : Deed) (teletype : Teletype S) : Watched S :=
  ⟨teletype, ⟨deed, watched.teletype.columns, teletype.columns⟩ :: watched.record⟩

variable [SlotStore S]

/-- Whatever a watched teletype is asked for is asked of the teletype. -/
instance : Console (Watched S) where
  slotCount watched := SlotStore.slotCount watched.teletype
  read slot watched :=
    let (result, teletype) := SlotStore.read slot watched.teletype
    (result, { watched with teletype })
  persist slot block watched :=
    let (result, teletype) := SlotStore.persist slot block watched.teletype
    (result, { watched with teletype })
  nextKey watched :=
    let (key, teletype) := Console.nextKey watched.teletype
    (key, { watched with teletype })
  breakHeld watched :=
    let (held, teletype) := Console.breakHeld watched.teletype
    (held, { watched with teletype })
  print? code watched := (Console.print? code watched.teletype).map (watched.note .output)
  newline? watched := (Console.newline? watched.teletype).map (watched.note .output)
  moveTo? row column watched :=
    (Console.moveTo? row column watched.teletype).map (watched.note .output)
  column watched := Console.column watched.teletype
  clear watched := watched.note .clear (Console.clear watched.teletype)
  showEditLine codes watched :=
    { watched with teletype := Console.showEditLine codes watched.teletype }
  showReport report watched := watched.note .report (Console.showReport report watched.teletype)
  notice message watched := { watched with teletype := Console.notice message watched.teletype }
  clock watched := Console.clock watched.teletype
  delay duration watched := { watched with teletype := Console.delay duration watched.teletype }
  random largest watched :=
    let (number, teletype) := Console.random largest watched.teletype
    (number, { watched with teletype })
  startTone pitch watched := { watched with teletype := Console.startTone pitch watched.teletype }
  stopTone watched := { watched with teletype := Console.stopTone watched.teletype }

/-- The record keeps to the laws. -/
structure Sound (watched : Watched S) : Prop where
  lawful : Lawful watched.record watched.teletype.columns
  even : watched.teletype.screen.EndsEven

/-- The record keeps to the laws, and no report was shown since the display was emptied. -/
structure Printable (watched : Watched S) : Prop extends Sound watched where
  unreported : ∀ last ∈ watched.record.head?, last.deed ≠ .report

/-- A teletype is as if it were not watched, and something holds of the one that is. -/
def Shows (holds : Watched S → Prop) (watched : Watched S) (teletype : Teletype S) : Prop :=
  teletype = watched.teletype ∧ holds watched

section
omit [SlotStore S]

variable {watched : Watched S} {changed : Teletype S}

/-- Nothing is done to roll and grid. -/
theorem Sound.aside (sound : watched.Sound) (printed : changed.printed = watched.teletype.printed)
    (screen : changed.screen = watched.teletype.screen) :
    Sound { watched with teletype := changed } := by
  have columns : changed.columns = watched.teletype.columns := by
    rw [Teletype.columns, Teletype.columns, printed, screen]
  exact ⟨columns ▸ sound.lawful, screen ▸ sound.even⟩

theorem Printable.aside (printable : watched.Printable)
    (printed : changed.printed = watched.teletype.printed)
    (screen : changed.screen = watched.teletype.screen) :
    Printable { watched with teletype := changed } :=
  ⟨printable.toSound.aside printed screen, printable.unreported⟩

theorem Printable.output (printable : watched.Printable)
    (keeps : watched.teletype.columns.Aligned → changed.columns.Aligned)
    (even : changed.screen.EndsEven) : (watched.note .output changed).Printable := by
  refine ⟨⟨.output printable.lawful printable.unreported keeps, even⟩, fun last member => ?_⟩
  cases member
  exact nofun

end

theorem Sound.clear {watched : Watched S} (sound : watched.Sound) :
    (Console.clear watched).Printable := by
  refine ⟨⟨.clear sound.lawful, Screen.endsEven_clear _⟩, fun last member => ?_⟩
  cases member
  exact nofun

theorem Sound.showReport {watched : Watched S} (sound : watched.Sound) (report : String) :
    (Console.showReport report watched).Sound := by
  refine ⟨?_, sound.even⟩
  let shown := watched.teletype.showReport report
  have columns : shown.columns = ⟨0, watched.teletype.columns.grid⟩ :=
    Teletype.columns_showReport report watched.teletype
  change Lawful (⟨.report, watched.teletype.columns, shown.columns⟩ :: watched.record) shown.columns
  rw [columns]
  exact .report sound.lawful

/-- That a teletype is watched makes no difference to what it does. -/
theorem reporting :
    Console.Reporting (Shows (Printable (S := S))) (Shows Sound) where
  slotCount := by
    rintro watched _ ⟨rfl, _⟩
    rfl
  read := by
    rintro slot watched _ ⟨rfl, printable⟩
    exact ⟨rfl, rfl, printable.aside rfl rfl⟩
  persist := by
    rintro slot block watched _ ⟨rfl, printable⟩
    exact ⟨rfl, rfl, printable.aside rfl rfl⟩
  nextKey := by
    rintro watched _ ⟨rfl, printable⟩
    obtain ⟨printed, screen⟩ := Teletype.aside_nextKey watched.teletype
    exact ⟨rfl, rfl, printable.aside printed screen⟩
  breakHeld := by
    rintro watched _ ⟨rfl, printable⟩
    exact ⟨rfl, rfl, printable⟩
  random := by
    rintro largest watched _ ⟨rfl, printable⟩
    obtain ⟨printed, screen⟩ := Teletype.aside_random largest watched.teletype
    exact ⟨rfl, rfl, printable.aside printed screen⟩
  column := by
    rintro watched _ ⟨rfl, _⟩
    rfl
  clock := by
    rintro watched _ ⟨rfl, _⟩
    rfl
  print? := by
    rintro code watched _ ⟨rfl, printable⟩
    obtain ⟨screen, even, -, print⟩ := Teletype.exists_print printable.even code
    refine .some ⟨rfl, printable.output (Teletype.aligned_print printable.even · code) ?_⟩
    rw [print]
    exact even
  newline? := by
    rintro watched _ ⟨rfl, printable⟩
    exact .some ⟨rfl, printable.output (fun _ => Teletype.aligned_newline _)
      fun _ => Teletype.column_newline _⟩
  moveTo? := by
    rintro row column watched _ ⟨rfl, printable⟩
    change Option.Rel (Shows Printable)
      ((watched.teletype.moveTo? row column).map (watched.note .output))
      (watched.teletype.moveTo? row column)
    cases move : watched.teletype.moveTo? row column with
    | none => exact .none
    | some moved =>
        refine .some ⟨rfl, printable.output (Teletype.aligned_moveTo? · move) ?_⟩
        obtain ⟨screen, placed, rfl⟩ := Option.map_eq_some_iff.mp move
        exact Screen.endsEven_moveTo? placed
  clear := by
    rintro watched _ ⟨rfl, printable⟩
    exact ⟨rfl, printable.toSound.clear⟩
  showEditLine := by
    rintro codes watched _ ⟨rfl, printable⟩
    exact ⟨rfl, printable⟩
  notice := by
    rintro message watched _ ⟨rfl, printable⟩
    exact ⟨rfl, printable.aside rfl rfl⟩
  delay := by
    rintro duration watched _ ⟨rfl, printable⟩
    exact ⟨rfl, printable.aside rfl rfl⟩
  startTone := by
    rintro pitch watched _ ⟨rfl, printable⟩
    exact ⟨rfl, printable⟩
  stopTone := by
    rintro watched _ ⟨rfl, printable⟩
    exact ⟨rfl, printable⟩
  idle_of_busy := by
    rintro watched _ ⟨rfl, printable⟩
    exact ⟨rfl, printable.toSound⟩
  idle_showReport := by
    rintro report watched _ ⟨rfl, sound⟩
    exact ⟨rfl, sound.showReport report⟩
  idle_showEditLine := by
    rintro codes watched _ ⟨rfl, sound⟩
    exact ⟨rfl, sound⟩
  busy_clear := by
    rintro watched _ ⟨rfl, sound⟩
    exact ⟨rfl, sound.clear⟩

end Watched
end HomeBasic
