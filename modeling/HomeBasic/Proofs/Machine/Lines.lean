import HomeBasic.Proofs.Console.Padding
import HomeBasic.Proofs.Program.Ends
import HomeBasic.Proofs.Scanner.Ends

/-!
# Lines come to an end

Checking a line and carrying it out come to an end, wherever in some bytes the line starts. There
are loops in it of many kinds: the scanner passes over codes, expressions and items and statements
follow one another, operations are folded, a line goes to a column with spaces, a command walks
through the program or a block. None of them needs a bound. All of what reads the line stays
inside of it, and whatever is read well is a code at least.

A line is left waiting, or looks for an item line by line, only at a command that lingers.

Main statement: `lines_end`.
-/

namespace HomeBasic

open Attempt (Sustains)
open Console (Used)
open Desk (EndsInline KeepsScanner Passes)

/-! ## Places of a line -/

namespace Scanner

/-- A scanner came to a place of some bytes from a start in them: it did not move back, and no line
ends between the start and the place. The end of the bytes counts as the end of a line. -/
structure Inside (bytes : List Code) (start : Nat) (later : Scanner) : Prop where
  onward : start ≤ later.position
  rest : later.rest = bytes.drop later.position
  line : ∀ place, start ≤ place → place < later.position →
    bytes.getD place Code.newline ≠ Code.newline

theorem getD_ne_newline {codes : List Code} {place : Nat}
    (before : place < (codes.takeWhile (· != Code.newline)).length) :
    codes.getD place Code.newline ≠ Code.newline := by
  have within := Nat.lt_of_lt_of_le before (List.takeWhile_sublist _).length_le
  have more := List.mem_takeWhile_imp (List.getElem_mem before)
  rw [(List.takeWhile_prefix _).getElem before] at more
  rw [List.getD_eq_getElem?_getD, List.getElem?_eq_getElem within, Option.getD_some]
  exact bne_iff_ne.mp more

theorem Follows.inside {start later : Scanner} (follows : later.Follows start)
    {bytes : List Code} (placed : start.rest = bytes.drop start.position) :
    later.Inside bytes start.position := by
  obtain ⟨count, left, position, rest⟩ := follows
  refine ⟨by omega, by rw [rest, placed, List.drop_drop, position], fun place behind before => ?_⟩
  have inLine : place - start.position < start.codesLeft := by omega
  have code := getD_ne_newline inLine
  rw [placed] at code
  simpa [List.getD, List.getElem?_drop, Nat.add_sub_cancel' behind] using code

/-- Whatever moves a scanner moves it on over codes of its line. -/
structure Stays (size : WordSize) (scanner : Scanner) : Prop where
  look : scanner.look.Follows scanner
  advance : scanner.advance.Follows scanner
  skip : ∀ count, (scanner.skip count).Follows scanner
  toEnd : scanner.skipToEnd.Follows scanner
  number : (readNumber size scanner).2.Follows scanner
  lineNumber : (scanner.pass (scanner.rest.takeWhile Code.isDigit).length).Follows scanner
  /-- A text is read where its opening quote is. -/
  text : scanner.current = Code.quote → (readText scanner).2.Follows scanner
  expect : ∀ code, (expect code scanner).2.Follows scanner
  expectEnd : (expectEnd scanner).2.Follows scanner

theorem stays (size : WordSize) (scanner : Scanner) : scanner.Stays size := by
  have inline := inline_follows scanner
  have start := Follows.refl scanner
  exact {
    look := follows_look scanner
    advance := follows_advance scanner
    skip := follows_skip scanner
    toEnd := .of_pass (Nat.le_refl _)
    number := (inline.sustains_readNumber size).kept start
    lineNumber := .of_pass (length_takeWhile_le digit_onLine)
    text := fun opening => by
      have read := reads_readText opening
      unfold Reads at read
      generalize readText scanner = outcome at read ⊢
      rcases outcome with ⟨fault | text, later⟩
      · exact read
      · exact read.1
    expect := fun code => (inline.sustains_expect code).kept start
    expectEnd := inline.sustains_expectEnd.kept start }

end Scanner

/-! ## Reading a line -/

namespace Statement

/-- Reading a line comes to an end inside of it, and what is read well is a code at least. -/
structure ReadsInline (H : Type) [Console H] (environment : Environment) (mode : Mode) :
    Prop where
  /-- Expressions end, with any number of levels inside of them. -/
  expressions (levels : Nat) :
    let nested := Expression.evaluateWithin environment mode levels
    EndsInline (Expression.operationsTurn environment mode nested) fun _ (desk : Desk H) =>
      Expression.operations environment mode nested (desk.scanner.rest.length + 1) desk
  folding (operator : Operator) (stack : List Pending) (value : Value) :
    Repeats (Expression.foldTurn environment mode operator) (stack, value)
      (Expression.foldAll environment mode operator stack value)
  printItems : EndsInline (printTurn environment mode) fun newline (desk : Desk H) =>
    printItems environment mode (desk.scanner.rest.length + 1) newline desk
  dataItems : EndsInline (dataTurn environment mode) fun _ (desk : Desk H) =>
    dataItems environment mode (desk.scanner.rest.length + 1) desk
  statements : EndsInline (statementTurn environment mode) fun _ (desk : Desk H) =>
    line environment mode desk
  /-- The scanner is moved on over codes of the line, and changed in no other way. -/
  moves {holds : Scanner → Prop} (linewise : Linewise holds) :
    KeepsScanner holds (line environment mode : Attempt (Desk H) (Option Command))
  inside (bytes : List Code) (desk : Desk H)
    (placed : desk.scanner.rest = bytes.drop desk.scanner.position) :
    (line environment mode desk).2.scanner.Inside bytes desk.scanner.position
  evaluation (levels : Nat) (desk : Desk H) :
    Passes desk.scanner (Expression.evaluateWithin environment mode levels) desk
  printItem (desk : Desk H) :
    Passes desk.scanner (printItem environment mode desk.scanner.current) desk
  dataItem (desk : Desk H) : Passes desk.scanner (dataTurn environment mode ()) desk
  /-- A statement takes up a code of the line, unless there is none. -/
  statement (desk : Desk H) (more : (atWord desk.scanner).current ≠ Code.newline) :
    Passes desk.scanner (statement environment mode) desk
  /-- An `IF` that leads on to a statement takes up a code, and there is one for the statement. -/
  clause (desk later : Desk H) (run : Statement.statement environment mode desk =
    (.ok .another, later)) :
    desk.scanner.Precedes later.scanner ∧ later.scanner.current ≠ Code.newline

theorem readsInline (H : Type) [Console H] (environment : Environment) (mode : Mode) :
    ReadsInline H environment mode where
  expressions levels := Expression.endsInline_operations environment mode fun inline =>
    Expression.keepsScanner_evaluateWithin inline environment mode levels
  folding := Expression.repeats_foldAll environment mode
  printItems := endsInline_printItems environment mode
  dataItems := endsInline_dataItems environment mode
  statements := endsInline_line environment mode
  moves := keepsScanner_line environment mode
  inside bytes desk placed := by
    have keeps := @keepsScanner_line H _ environment mode _ (linewise_follows desk.scanner)
    exact Scanner.Follows.inside (keeps.kept (.refl desk.scanner)) placed
  evaluation levels desk :=
    Expression.passes_evaluateWithin environment mode levels (.refl desk.scanner)
  printItem desk := passes_printItem environment mode (.refl desk.scanner)
  dataItem desk := passes_dataTurn environment mode (.refl desk.scanner)
  statement _ more := passes_statement environment mode more
  clause _ _ run := by
    obtain ⟨_, _, more⟩ := exists_of_another environment mode run
    exact ⟨precedes_of_another environment mode run, more⟩

end Statement

/-! ## Carrying out a line -/

/-- A command looks for an item line by line, waits for keys or lets time pass. -/
def Command.Lingers : Command → Prop
  | .read _ | .input _ | .wait _ | .beep .. => True
  | _ => False

namespace Machine

variable {H : Type}

/-- A machine is doing this or that. -/
def InPhase (phase : Phase) (machine : Machine H) : Prop :=
  machine.phase = phase

variable [Console H]

/-- A command that does not linger leaves the machine on its way. -/
theorem sustains_perform_phase {command : Command} (brief : ¬command.Lingers) (phase : Phase) :
    Sustains (InPhase phase) (perform command : Attempt (Machine H) Unit) fun _ => True := by
  have console : IgnoresConsole (InPhase phase : Machine H → Prop) := fun _ _ same => same
  have store : IgnoresVariables (InPhase phase : Machine H → Prop) := fun _ _ same => same
  have line (value : Int) : Sustains (InPhase phase : Machine H → Prop)
      (Attempt.ofExcept (lineNumber value)) fun _ => True :=
    Attempt.sustains_ofExcept fun _ _ => trivial
  cases command with
  | read | input | wait | beep => exact absurd trivial brief
  | list start => exact (line _).bind fun _ _ => console.list _
  | run start => exact (line _).bind fun _ _ => Attempt.sustains_modify fun _ same => same
  | goto number => exact (line _).bind fun _ _ => Attempt.sustains_modify fun _ same => same
  | restore number => exact (line _).bind fun _ _ => Attempt.sustains_modify fun _ same => same
  | new | clear => exact Attempt.sustains_modify fun _ same => same
  | cls => exact console.tellConsole _
  | dimension name maxIndex => exact store.onVariables _
  | assign target value => exact store.assign target value
  | save slot => exact console.save slot
  | stop => exact Attempt.sustains_throw _
  | cont =>
      refine Attempt.sustains_modify fun machine same => ?_
      split
      · exact same
      · exact same
  | load slot =>
      refine (sustains_slotNumber slot).bind fun slot _ => (console.fetchBlock slot).bind
        fun block _ => Attempt.sustains_get.bind fun machine same => ?_
      split
      · exact console.transferFailed _
      · exact Attempt.sustains_set same
  | gosub number =>
      exact (line _).bind fun _ _ => Attempt.sustains_get.bind fun _ same =>
        (Attempt.sustains_ofExcept fun _ _ => same).bind fun _ same => Attempt.sustains_set same
  | «return» =>
      refine Attempt.sustains_get.bind fun machine same => ?_
      split
      · exact Attempt.sustains_set same
      · exact Attempt.sustains_throw _
  | loop name start limit =>
      exact (store.onVariables _).bind fun _ _ => Attempt.sustains_get.bind fun _ _ =>
        store.onVariables _
  | next name =>
      refine (store.onVariables _).bind fun resume _ => ?_
      cases resume with
      | none => exact Attempt.sustains_pure trivial
      | some number => exact Attempt.sustains_modify fun _ same => same
  | poke address value =>
      exact Attempt.sustains_get.bind fun machine same => Attempt.sustains_guard fun _ =>
        Attempt.sustains_guard fun _ => Attempt.sustains_set same

/-- What a line asks of a machine. -/
def lineAsks (scanner : Scanner) : Attempt (Machine H) (Option Command) :=
  atDesk scanner fun environment => Statement.line environment .execute

/-- A line that comes to no command that lingers leaves the machine on its way. -/
theorem phase_carryOut (scanner : Scanner) (machine : Machine H)
    (brief : ∀ command, (lineAsks scanner machine).1 = .ok (some command) → ¬command.Lingers) :
    (carryOut scanner machine).2.phase = machine.phase := by
  have read : (lineAsks scanner machine).2.phase = machine.phase := rfl
  change ((lineAsks scanner >>= _) machine).2.phase = machine.phase
  rw [Attempt.bind_apply]
  generalize lineAsks scanner machine = outcome at brief read ⊢
  rcases outcome with ⟨fault | _ | command, later⟩
  · exact read
  · exact read
  · exact (sustains_perform_phase (brief command rfl) machine.phase).kept read

/-- What a command walks through comes to an end, and a line that does not linger leaves the machine
on its way. -/
structure WorksOff (machine : Machine H) : Prop where
  find (number : Nat) :
    Repeats (machine.program.findTurn number) (0, none) (machine.program.find number)
  list (start : Nat) :
    Repeats (Attempt.turn (machine.program.listTurn machine.config.word))
      ((machine.program.find start).1, machine.console)
      (Printing.listings
        ((machine.program.linesAfter start).map (·.listing machine.config.word)) machine.console)
  /-- The program of a block is checked, and its variables are decoded. -/
  block (block : List Code) :
    Repeats Program.packedTurn (0, 0, block) (Program.packedLength? (block.length + 1) 0 block)
  records (store : Variables) (bytes : List Code) :
    Repeats Variables.recordTurn (store, bytes)
      (Variables.readRecords? (bytes.length + 1) store bytes)
  phase (scanner : Scanner)
    (brief : ∀ command, (lineAsks scanner machine).1 = .ok (some command) → ¬command.Lingers) :
    (carryOut scanner machine).2.phase = machine.phase

theorem worksOff (machine : Machine H) : machine.WorksOff where
  find := machine.program.repeats_find
  list _ := machine.program.repeats_listings machine.config.word _ machine.console
  block := Program.repeats_packedLength?
  records := Variables.repeats_readRecords?
  phase scanner brief := phase_carryOut scanner machine brief

end Machine

/-! ## Printing on a recorder -/

/-- Going to a column of the display with spaces comes to an end, on every console that a recorder
may come to, and a line comes to no other ones. -/
structure Recorder.PadsOff {S : Type} [SlotStore S] (config : Config) (first : Recorder S) :
    Prop where
  comma (recorder : Recorder S) (used : Used first recorder) :
    Repeats (Attempt.turn (Printing.padTurn (config.width / 2))) ((), recorder)
      (Printing.padTo (config.width / 2) recorder)
  tab (column : Int) (recorder : Recorder S) (used : Used first recorder) :
    Repeats (Attempt.turn (Printing.padTurn (column % config.width).toNat)) ((), recorder)
      (Printing.padTo (column % config.width).toNat recorder)
  expression (environment : Environment) (desk : Desk (Recorder S))
    (used : Used first desk.console) :
    Used first (Statement.expression environment .execute desk).2.console
  printTurn (environment : Environment) (newline : Bool) (desk : Desk (Recorder S))
    (used : Used first desk.console) :
    Used first (Statement.printTurn environment .execute newline desk).2.console
  statement (environment : Environment) (desk : Desk (Recorder S))
    (used : Used first desk.console) :
    Used first (Statement.statement environment .execute desk).2.console
  line (scanner : Scanner) (machine : Machine (Recorder S)) (used : Used first machine.console) :
    Used first (Machine.carryOut scanner machine).2.console

theorem Recorder.padsOff_start {S : Type} [SlotStore S] (config : Config) (randoms : List Int)
    (slots : S) (wide : 1 ≤ config.width) : (start config randoms slots).PadsOff config := by
  have pads (goal : Nat) (inside : goal < config.width) (recorder : Recorder S)
      (used : Used (start config randoms slots) recorder) :
      Repeats (Attempt.turn (Printing.padTurn goal)) ((), recorder)
        (Printing.padTo goal recorder) :=
    Printing.repeats_padTo (ruled config.width) inside
      (sound_of_used ⟨Screen.placed_blank wide, rfl⟩ used)
  exact {
    comma := pads _ (Nat.div_lt_self wide (by decide))
    tab := fun column => pads _ (by
      have columns : (0 : Int) < config.width := by omega
      have below := Int.emod_lt_of_pos column columns
      omega)
    expression := fun environment _ => Statement.used_expression environment
    printTurn := fun environment newline _ used => Statement.used_printTurn environment used newline
    statement := fun environment _ => Statement.used_statement environment
    line := fun scanner _ => Machine.used_carryOut scanner }

/-! ## All of it -/

namespace Machine

/-- Scanning comes to an end inside its line. Whatever moves a scanner is done code by code, and
stays on the line; a line is read to an end inside of it, be it checked or carried out, and what is
read well there is a code at least; what a command walks through has an end, and a command that
does not linger leaves the machine on its way; and on a recorder with a column at least, what is
printed goes to its column in the end. -/
theorem lines_end :
    (∀ (size : WordSize) (scanner : Scanner), scanner.Ends size ∧ scanner.Stays size) ∧
      (∀ (H : Type) [Console H] (environment : Environment) (mode : Mode),
        Statement.ReadsInline H environment mode) ∧
      (∀ (H : Type) [Console H] (machine : Machine H), machine.WorksOff) ∧
      ∀ (S : Type) [SlotStore S] (config : Config) (randoms : List Int) (slots : S),
        1 ≤ config.width → (Recorder.start config randoms slots).PadsOff config := by
  refine ⟨fun size scanner => ⟨scanner.ends size, scanner.stays size⟩, ?_, ?_, ?_⟩
  · exact fun H _ environment mode => Statement.readsInline H environment mode
  · exact fun _ _ machine => machine.worksOff
  · exact fun _ _ config randoms slots wide => Recorder.padsOff_start config randoms slots wide

/-- A small display. -/
def slim : Config :=
  { width := 8, height := 3 }

/-- A line of text without its number. -/
def columns : List Code :=
  (Line.ofText "10 IF 1=1 THEN PRINT 1,2;TAB 6;3").body

/-- A small display, and a line that is to be carried out in front of another one. -/
def atColumns : Desk (Recorder MemorySlots) where
  scanner := .ofBytes (columns ++ Code.newline :: columns) 0
  calculator := .empty slim.calculatorDepth
  console := .start slim [] (MemorySlots.empty 2)

/-- A machine in front of a line that jumps. -/
def jumping : Machine (Recorder MemorySlots) :=
  { start slim atColumns.console with phase := .running }

/-- An `IF` leads on to a `PRINT` that goes to a column twice, and ends where its line does; and a
`GOTO` leaves the program running. -/
theorem lines_end_columns :
    1 ≤ slim.width ∧
      Repeats (Attempt.turn (Statement.statementTurn (.blank slim) .execute)) ((), atColumns)
        (Statement.line (.blank slim) .execute atColumns) ∧
      (Statement.line (.blank slim) .execute atColumns).1 = .ok none ∧
      (Statement.line (.blank slim) .execute atColumns).2.scanner.Inside
        (columns ++ Code.newline :: columns) 0 ∧
      (Statement.line (.blank slim) .execute atColumns).2.scanner.position = columns.length ∧
      (Statement.line (.blank slim) .execute atColumns).2.console.text = "1   2 3\n" ∧
      (Statement.statement (.blank slim) .execute atColumns).1 = .ok .another ∧
      atColumns.scanner.Precedes
        (Statement.statement (.blank slim) .execute atColumns).2.scanner ∧
      Repeats (Attempt.turn (Printing.padTurn (slim.width / 2))) ((), atColumns.console)
        (Printing.padTo (slim.width / 2) atColumns.console) ∧
      (lineAsks (.ofBytes (Line.ofText "10 GOTO 20").body 0) jumping).1 = .ok (some (.goto 20)) ∧
      (carryOut (.ofBytes (Line.ofText "10 GOTO 20").body 0) jumping).2.phase = .running := by
  obtain ⟨-, read, worked, padded⟩ := lines_end
  have inline := read (Recorder MemorySlots) (.blank slim) .execute
  have works := worked (Recorder MemorySlots) jumping
  have pads := padded MemorySlots slim [] (MemorySlots.empty 2) (by decide)
  have leads : (Statement.statement (.blank slim) .execute atColumns).1 = .ok .another := by
    decide +kernel
  have run : Statement.statement (.blank slim) .execute atColumns =
      (.ok .another, (Statement.statement (.blank slim) .execute atColumns).2) := by
    rw [← leads]
    exact (Prod.eta _).symm
  have asks : (lineAsks (.ofBytes (Line.ofText "10 GOTO 20").body 0) jumping).1 =
      .ok (some (.goto 20)) := by
    decide +kernel
  refine ⟨by decide, inline.statements.ends () atColumns, ?_, ?_, ?_, ?_, leads, ?_, ?_, asks, ?_⟩
  · decide +kernel
  · exact inline.inside (columns ++ Code.newline :: columns) atColumns rfl
  · decide +kernel
  · decide +kernel
  · exact (inline.clause atColumns _ run).1
  · exact pads.comma atColumns.console .unused
  · refine works.phase _ fun command asked => ?_
    rw [asks] at asked
    cases asked
    exact id

end Machine
end HomeBasic
