import HomeBasic.Proofs.Machine.Reads
import HomeBasic.Proofs.Machine.Slots

/-!
# Lines entered where the pointer stands

The `DATA` pointer knows its line by the number, and its place on the line by an offset. The
commands that change the program start it anew, and reading moves it from item to item. A line
that is entered leaves it as it is. So it stands at an item at all times, unless a line is
entered in place of the one that it is on, and no item of the new line begins at the same
offset: the line may be deleted, be no list, or have items of another length.

Main statement: the pointer stands at an item until such a line is entered, and then does not
(`atItem_press_enter_iff`).
-/

namespace HomeBasic

open Attempt (Sustains)

namespace Machine

variable {H : Type} [Console H] {machine changed : Machine H} {config : Config}

/-- To enter the edit line would displace the pointer: the line replaces the one that the
pointer is on, and none of its items begins where the pointer stands. -/
def Displaces (machine : Machine H) : Prop :=
  (machine.press .enter).1 = true ∧ ∃ offset,
    machine.data = ⟨(Line.ofCodes machine.edit.text).number, some offset⟩ ∧
      ¬(Line.ofCodes machine.edit.text).ItemAt offset

/-- A machine that came about by typing display codes, with no line entered that displaced the
pointer. -/
inductive Undisplaced (config : Config) : Machine H → Prop
  | start (console : H) : Undisplaced config (Machine.start config console)
  | press {machine : Machine H} {key : Key} (before : Undisplaced config machine)
      (editing : machine.phase = .editing) (displayed : key.Displayed)
      (stays : key = .enter → ¬machine.Displaces) : Undisplaced config (machine.press key).2
  | advance {machine : Machine H} (before : Undisplaced config machine) :
      Undisplaced config machine.advance
  | retype {machine : Machine H} (before : Undisplaced config machine)
      (editing : machine.phase = .editing) :
      Undisplaced config { machine with edit := machine.edit.clear }
  | outside {machine : Machine H} (before : Undisplaced config machine) (console : H) :
      Undisplaced config { machine with console }

/-! ## One line -/

/-- While a line is typed there is no end of a line in it. -/
def TypesOneLine (machine : Machine H) : Prop :=
  machine.phase = .editing → Code.newline ∉ machine.edit.text

theorem text_refreshEdit (machine : Machine H) :
    machine.refreshEdit.edit.text = machine.edit.text := by
  obtain ⟨edit, glyph, codes, shown, text, _⟩ := exists_refreshEdit machine
  rw [shown]
  exact text

omit [Console H] in
theorem oneLine_recallLine (oneLine : Code.newline ∉ machine.edit.text) (offset : Nat) :
    Code.newline ∉ (machine.recallLine offset).edit.text := by
  unfold recallLine
  cases found : machine.program.lineAt? offset with
  | none => exact oneLine
  | some line => exact Line.oneLine_listing (Program.oneLine_of_headLine? found) _

theorem oneLine_submit (oneLine : Code.newline ∉ machine.edit.text) :
    Code.newline ∉ (machine.press .enter).2.edit.text := by
  have submitted := machine.submitted
  generalize machine.press .enter = answer at submitted ⊢
  cases submitted with
  | blank =>
      rw [submitBlank, text_refreshEdit]
      exact List.not_mem_nil
  | refused | full =>
      rw [text_refreshEdit]
      exact oneLine
  | direct => exact oneLine
  | stored =>
      rw [text_refreshEdit]
      exact List.not_mem_nil

theorem oneLine_press {key : Key} (displayed : key.Displayed)
    (oneLine : Code.newline ∉ machine.edit.text) :
    Code.newline ∉ (machine.press key).2.edit.text := by
  unfold press
  split
  · exact oneLine_submit oneLine
  · rw [text_refreshEdit]
    unfold recallPrevious
    split
    · exact oneLine_recallLine oneLine _
    · exact oneLine
  · rw [text_refreshEdit]
    exact oneLine_recallLine oneLine _
  · rw [text_refreshEdit]
    exact EditLine.oneLine_editKey displayed oneLine

theorem TypesOneLine.advance (oneLine : machine.TypesOneLine) : machine.advance.TypesOneLine := by
  by_cases editing : machine.phase = .editing
  · rwa [Machine.advance, editing]
  · intro ends
    obtain ⟨before, inProgram, outcome, concluded⟩ := concluded_advance editing ends
    rw [concluded]
    unfold conclude
    dsimp only
    rw [text_refreshEdit]
    exact List.not_mem_nil

/-! ## Steps -/

/-- The program consists of lines, and the pointer stands at an item if it has an offset. -/
structure Pointing (machine : Machine H) : Prop where
  holds : ∃ lines, machine.program.Holds lines
  place : machine.data.AtItem machine.program

omit [Console H] in
theorem Pointing.untouched (pointing : machine.Pointing) (same : Untouched machine changed) :
    changed.Pointing := by
  obtain ⟨holds, place⟩ := pointing
  rw [← same.program] at holds place
  rw [← same.data] at place
  exact ⟨holds, place⟩

omit [Console H] in
theorem Pointing.fromLine {number : Nat} (holds : ∃ lines, machine.program.Holds lines)
    (data : machine.data = .fromLine number) : machine.Pointing := by
  refine ⟨holds, ?_⟩
  rw [data]
  exact DataPointer.atItem_fromLine _ _

omit [Console H] in
theorem Bypasses.pointing {α : Type} {step : Attempt (Machine H) α} (bypasses : Bypasses step) :
    Sustains Pointing step fun _ => True :=
  Attempt.sustains_of_kept fun machine pointing => pointing.untouched (bypasses.untouched machine)

theorem pointing_load (slot : Int) :
    Sustains Pointing (load slot : Attempt (Machine H) Unit) fun _ => True := by
  refine Attempt.sustains_of_kept fun machine pointing => ?_
  rcases load_cases slot machine with ⟨image, console, finds, run⟩ | ⟨-, fault, console, -, run⟩
  · rw [run]
    obtain ⟨block, -, -, program, -⟩ := finds.held
    exact .fromLine (Program.sound_of_decode? program).holds rfl
  · rw [run]
    exact pointing.untouched ⟨rfl, rfl, rfl⟩

theorem pointing_read (target : Target) :
    Sustains Pointing (perform (.read target) : Attempt (Machine H) Unit) fun _ => True := by
  refine Attempt.sustains_of_kept fun reader pointing => ?_
  obtain ⟨⟨lines, holds⟩, place⟩ := pointing
  obtain ⟨_, program, still⟩ := (fetched_fetch holds place).placed
  have fetched : reader.fetch.2.Pointing := by
    constructor
    · rw [program]
      exact ⟨lines, holds⟩
    · rw [program]
      exact still
  rw [perform_read]
  exact fetched.untouched (untouched_deliver target _)

theorem pointing_perform (command : Command) :
    Sustains Pointing (perform command : Attempt (Machine H) Unit) fun _ => True := by
  by_cases leaves : command.LeavesItems
  · exact (bypasses_perform leaves).pointing
  · cases command with
    | run start | restore start =>
        exact (Bypasses.pointing (keeps_ofExcept _)).bind fun start _ =>
          Attempt.sustains_modify fun _ pointing => .fromLine pointing.holds rfl
    | clear => exact Attempt.sustains_modify fun _ pointing => .fromLine pointing.holds rfl
    | new =>
        exact Attempt.sustains_modify fun machine _ =>
          .fromLine ⟨[], Program.holds_empty machine.program.capacity⟩ rfl
    | load slot => exact pointing_load slot
    | read target => exact pointing_read target
    | _ => exact absurd trivial leaves

theorem Pointing.advance (pointing : machine.Pointing) : machine.advance.Pointing := by
  cases order : machine.order? with
  | none => exact pointing.untouched (untouched_of_order_eq_none order)
  | some found =>
      obtain ⟨command, carrier⟩ := found
      obtain ⟨same, inProgram, carried⟩ := advance_of_order order
      rw [carried]
      exact ((pointing_perform command).kept (pointing.untouched same)).untouched
        (Untouched.frame.proceed _ _)

/-! ## Lines that are entered -/

section
variable (pointing : machine.Pointing) (oneLine : Code.newline ∉ machine.edit.text)
include pointing oneLine

/-- A line that is stored displaces the pointer, or leaves it at an item. -/
theorem atItem_stored_iff (numbered : (Line.ofCodes machine.edit.text).number ≠ 0)
    (taken : (machine.press .enter).1 = true) :
    (machine.press .enter).2.data.AtItem (machine.press .enter).2.program ↔
      ¬machine.Displaces := by
  obtain ⟨⟨lines, holds⟩, place⟩ := pointing
  have after := holds_press_enter holds oneLine numbered taken
  rw [data_press_enter.2, DataPointer.AtItem, after.lines_eq]
  simp only [Program.mem_inserted]
  constructor
  · rintro stands ⟨-, offset, data, noItem⟩
    obtain ⟨line, ⟨_, other⟩ | ⟨_, rfl⟩, number, item⟩ := stands offset (by rw [data])
    · rw [data] at number
      exact other number
    · exact noItem item
  · intro stays offset some
    obtain ⟨line, member, number, item⟩ := place offset some
    rw [holds.lines_eq] at member
    by_cases same : line.number = (Line.ofCodes machine.edit.text).number
    · have replaced : (Line.ofCodes machine.edit.text).ItemAt offset := by
        by_contra noItem
        have data : machine.data = ⟨(Line.ofCodes machine.edit.text).number, .some offset⟩ := by
          rw [← same, number, ← some]
        exact stays ⟨taken, offset, data, noItem⟩
      have statement : (Line.ofCodes machine.edit.text).body ≠ [] := by
        obtain ⟨list, _, isList, _⟩ := replaced
        rw [Line.list?_eq_some_iff.mp isList]
        exact List.cons_ne_nil _ _
      exact ⟨_, .inr ⟨statement, rfl⟩, same.symm.trans number, replaced⟩
    · exact ⟨line, .inl ⟨member, same⟩, number, item⟩

theorem atItem_entered_iff :
    (∃ lines, (machine.press .enter).2.program.Holds lines) ∧
      ((machine.press .enter).2.data.AtItem (machine.press .enter).2.program ↔
        ¬machine.Displaces) := by
  by_cases stored : (machine.press .enter).1 = true ∧ (Line.ofCodes machine.edit.text).number ≠ 0
  · obtain ⟨lines, holds⟩ := pointing.holds
    exact ⟨⟨_, holds_press_enter holds oneLine stored.2 stored.1⟩,
      atItem_stored_iff pointing oneLine stored.2 stored.1⟩
  · have same := (program_press_enter oneLine).resolve_right stored
    rw [same, data_press_enter.2]
    refine ⟨pointing.holds, iff_of_true pointing.place ?_⟩
    -- The pointer is on a stored line, and none of them has the number zero.
    rintro ⟨taken, offset, data, _⟩
    obtain ⟨lines, holds⟩ := pointing.holds
    obtain ⟨line, member, number, _⟩ := pointing.place offset (by rw [data])
    rw [holds.lines_eq] at member
    have numbered := (holds.ordered.numbered line member).1
    rw [number, data] at numbered
    exact stored ⟨taken, Nat.ne_of_gt numbered⟩

end

/-- As long as no line displaces the pointer it stands at an item, or in front of a line. -/
theorem Undisplaced.pointing (undisplaced : Undisplaced config machine) :
    machine.Pointing ∧ machine.TypesOneLine := by
  induction undisplaced with
  | start console =>
      refine ⟨.fromLine ⟨[], Program.holds_empty config.programSize⟩ rfl, fun _ => ?_⟩
      rw [Machine.start, text_refreshEdit]
      exact List.not_mem_nil
  | @press machine key before editing displayed stays inductionHypothesis =>
      obtain ⟨pointing, oneLine⟩ := inductionHypothesis
      refine ⟨?_, fun _ => oneLine_press displayed (oneLine editing)⟩
      by_cases enter : key = .enter
      · subst enter
        obtain ⟨holds, stands⟩ := atItem_entered_iff pointing (oneLine editing)
        exact ⟨holds, stands.mpr (stays rfl)⟩
      · exact pointing.untouched (untouched_press enter)
  | advance before inductionHypothesis =>
      exact ⟨inductionHypothesis.1.advance, inductionHypothesis.2.advance⟩
  | retype before editing inductionHypothesis =>
      exact ⟨inductionHypothesis.1.untouched ⟨rfl, rfl, rfl⟩, fun _ => List.not_mem_nil⟩
  | outside before console inductionHypothesis =>
      exact ⟨inductionHypothesis.1.untouched ⟨rfl, rfl, rfl⟩, inductionHypothesis.2⟩

/-- What is fetched where the pointer stands at an item is the value of an item. -/
theorem Pointing.fetched {reader : Machine H} (pointing : reader.Pointing) :
    reader.fetch.1 = .error .subscriptOutOfRange ∨
      ∃ line ∈ reader.program.lines, ∃ item ∈ line.items,
        reader.fetch.1 = (evaluateItem item reader).1 := by
  obtain ⟨⟨lines, holds⟩, place⟩ := pointing
  have among {item : List Code} {others : List (List Code)}
      (ahead : reader.data.ahead reader.program = item :: others) :
      ∃ line ∈ lines, item ∈ line.items :=
    DataPointer.exists_of_mem_ahead holds place (by rw [ahead]; exact List.mem_cons_self)
  rw [holds.lines_eq]
  generalize outcome : reader.fetch = result
  have fetched : Fetched reader result := outcome ▸ fetched_fetch holds place
  cases fetched with
  | exhausted none behind => exact .inl rfl
  | failed ahead fails place kept =>
      obtain ⟨line, stored, member⟩ := among ahead
      exact .inr ⟨line, stored, _, member, fails.symm⟩
  | passed ahead yields place left =>
      obtain ⟨line, stored, member⟩ := among ahead
      exact .inr ⟨line, stored, _, member, yields.symm⟩

/--
The pointer stands at an item, until a line is entered that displaces it.

Whatever is carried out or typed in between, the line that the pointer is on is a stored list,
and an item of it begins at the offset, if there is one; a `READ` then evaluates an item of a
line, or finds none. A line that is entered leaves the pointer at an item exactly if it does
not displace it.
-/
theorem atItem_press_enter_iff (undisplaced : Undisplaced config machine) :
    machine.data.AtItem machine.program ∧
      (∀ target reader, machine.reader? = some (target, reader) →
        reader.fetch.1 = .error .subscriptOutOfRange ∨
          ∃ line ∈ machine.program.lines, ∃ item ∈ line.items,
            reader.fetch.1 = (evaluateItem item reader).1) ∧
      (machine.phase = .editing →
        ((machine.press .enter).2.data.AtItem (machine.press .enter).2.program ↔
          ¬machine.Displaces)) := by
  obtain ⟨pointing, oneLine⟩ := undisplaced.pointing
  refine ⟨pointing.place, fun target reader reads => ?_, fun editing => ?_⟩
  · have same := (advance_of_reader reads).1
    have fetched := (pointing.untouched same).fetched
    rw [same.program] at fetched
    exact fetched
  · exact (atItem_entered_iff pointing (oneLine editing)).2

/-- Codes that are typed displace nothing. -/
theorem Undisplaced.codes (undisplaced : Undisplaced config machine)
    (editing : machine.phase = .editing) {codes : List Code} (shown : ∀ code ∈ codes, code < 0x40) :
    Undisplaced config (machine.pressAll (codes.map .code)) := by
  induction codes generalizing machine with
  | nil => exact undisplaced
  | cons code rest inductionHypothesis =>
      obtain ⟨first, others⟩ := List.forall_mem_cons.mp shown
      obtain ⟨-, edit, glyph, codes, pressed⟩ :=
        exists_press machine (show Key.code code ≠ .enter from nofun)
      refine inductionHypothesis (undisplaced.press editing ?_ nofun) ?_ others
      · rintro _ ⟨⟩
        exact first
      · exact (congrArg Machine.phase pressed).trans editing

/-- A machine at which a line of items was typed. -/
def listTyped : Machine NoConsole :=
  (start {} NoConsole.mk).pressAll ((Code.encode "10 DATA 1,2").map .code)

/-- The machine at which a direct `READ` was typed when that line was entered. -/
def readTyped : Machine NoConsole :=
  (listTyped.press .enter).2.pressAll ((Code.encode "READ A").map .code)

/-- The machine at which only the number of the line was typed when an item was read. -/
def numberTyped : Machine NoConsole :=
  (readTyped.press .enter).2.advance.pressAll ((Code.encode "10").map .code)

/-- When a line is deleted whose items are not all read, the pointer stands at none. -/
theorem atItem_press_enter_iff_numberTyped :
    numberTyped.data = ⟨10, some 3⟩ ∧ numberTyped.data.AtItem numberTyped.program ∧
      ¬(numberTyped.press .enter).2.data.AtItem (numberTyped.press .enter).2.program := by
  have enters : Key.enter.Displayed := nofun
  have begins : Undisplaced {} (start {} NoConsole.mk) := .start NoConsole.mk
  have first : Undisplaced {} listTyped := begins.codes rfl (by decide +kernel)
  have early {machine : Machine NoConsole} (none : machine.data.offset = none) :
      ¬machine.Displaces := by
    rintro ⟨-, offset, data, -⟩
    rw [data] at none
    cases none
  have second : Undisplaced {} readTyped :=
    (first.press (by decide +kernel) enters fun _ => early (by decide +kernel)).codes
      (by decide +kernel) (by decide +kernel)
  have third : Undisplaced {} numberTyped :=
    (second.press (by decide +kernel) enters fun _ => early (by decide +kernel)).advance.codes
      (by decide +kernel) (by decide +kernel)
  have data : numberTyped.data = ⟨10, some 3⟩ := by decide +kernel
  obtain ⟨place, -, entered⟩ := atItem_press_enter_iff third
  refine ⟨data, place, fun stands => (entered (by decide +kernel)).mp stands ?_⟩
  have text : numberTyped.edit.text = Code.encode "10" := by decide +kernel
  refine ⟨by decide +kernel, 3, ?_, ?_⟩
  · rw [data, text]
    rfl
  · rw [text]
    rintro ⟨list, _, isList, _⟩
    cases isList

end Machine
end HomeBasic
