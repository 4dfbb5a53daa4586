import HomeBasic.Proofs.Line.Relisting
import HomeBasic.Proofs.Machine.Submitting
import HomeBasic.Proofs.Program.Refinement

/-!
# Lines brought back for editing

Up and down put the listing of a stored line into the edit line. Entered as it is, it is
stored again, and the program is what it was only if the line comes back from its listing.
A listing of which words run together is refused or spells another line, and a remark
loses the spaces at its end.

Main statement: a line that was entered is stored, and when it is brought back and entered
again the program stays as it is exactly if the line comes back from its listing
(`press_enter_recalled_iff`).
-/

namespace HomeBasic

theorem Code.newline_not_mem_shown {text : List Code} (shown : ∀ code ∈ text, code < 0x40) :
    Code.newline ∉ text :=
  fun member => absurd (shown _ member) (by decide)

/-! ## Blank lines -/

theorem Line.number_ofCodes_blank {text : List Code}
    (blank : text.all (· == Code.space) = true) : (ofCodes text).number = 0 := by
  have line : ∀ column, (Crunch.line text column).map Prod.fst = [Code.newline] := by
    induction text with
    | nil => exact fun _ => rfl
    | cons code rest inductionHypothesis =>
        rw [List.all_cons, Bool.and_eq_true] at blank
        obtain rfl := eq_of_beq blank.1
        exact fun column => inductionHypothesis blank.2 _
  rw [ofCodes, crunch, Crunched.bytes, line 0]
  rfl

namespace Machine

variable {H : Type} [Console H] {machine : Machine H}

/-! ## Entering a line -/

section
variable (oneLine : Code.newline ∉ machine.edit.text)
include oneLine

omit [Console H] in
/-- The editor reads the number that the text spells, if it takes the line. -/
theorem number_of_result {number : Nat}
    (result : (machine.edit.refresh.check machine.config).result = .ok number) :
    (Line.ofCodes machine.edit.text).number = number :=
  ((EditLine.result_check_iff machine.edit.crunched_refresh oneLine).mp result).1

omit [Console H] in
/-- The editor cuts off the statement that the text spells. -/
theorem typedStatement_eq : machine.typedStatement = (Line.ofCodes machine.edit.text).body :=
  EditLine.statement_check machine.edit.crunched_refresh oneLine

/-- A line with a number is taken, and leaves a store, exactly if it checks and is stored so. -/
theorem press_enter_iff (numbered : (Line.ofCodes machine.edit.text).number ≠ 0)
    {program : Program} :
    (machine.press .enter).1 = true ∧ (machine.press .enter).2.program = program ↔
      Statement.Checks machine.config (Line.ofCodes machine.edit.text).body ∧
        machine.program.insert (Line.ofCodes machine.edit.text).number
          (Line.ofCodes machine.edit.text).body = .ok program := by
  have taken {number : Nat} := @EditLine.result_check_iff machine.config machine.edit.refresh
    machine.edit.crunched_refresh oneLine number
  have submitted := machine.submitted
  generalize machine.press .enter = answer at submitted ⊢
  rw [← typedStatement_eq oneLine]
  cases submitted with
  | blank blank => exact absurd (Line.number_ofCodes_blank blank) numbered
  | refused result =>
      refine iff_of_false (fun both => nomatch both.1) fun ⟨checks, _⟩ => ?_
      rw [typedStatement_eq oneLine] at checks
      exact nomatch result.symm.trans (taken.mpr ⟨rfl, checks⟩)
  | direct result => exact absurd (number_of_result oneLine result) numbered
  | full _ result run =>
      rw [number_of_result oneLine result, run]
      exact iff_of_false (fun both => nomatch both.1) fun both => nomatch both.2
  | stored _ result run =>
      rw [number_of_result oneLine result, run, typedStatement_eq oneLine]
      exact ⟨fun both => ⟨(taken.mp result).2, congrArg _ both.2⟩,
        fun both => ⟨rfl, Except.ok.inj both.2⟩⟩

end

/-- A line that is entered takes its place among the others. -/
theorem holds_press_enter {lines : List Line} (holds : machine.program.Holds lines)
    (oneLine : Code.newline ∉ machine.edit.text)
    (numbered : (Line.ofCodes machine.edit.text).number ≠ 0)
    (entered : (machine.press .enter).1 = true) :
    (machine.press .enter).2.program.Holds
      (Program.inserted (Line.ofCodes machine.edit.text).number
        (Line.ofCodes machine.edit.text).body lines) := by
  obtain ⟨_, _, _, _, within⟩ := Line.exists_of_ofCodes numbered
  obtain ⟨_, stored⟩ := (press_enter_iff oneLine numbered).mp ⟨entered, rfl⟩
  exact holds.insert ⟨Nat.pos_of_ne_zero numbered, within⟩ (Line.oneLine_ofCodes oneLine) stored

/-- What is stored by entering a line is a line of the program. -/
theorem mem_lines_press_enter {capacity : Nat} (sound : machine.program.Sound capacity)
    (oneLine : Code.newline ∉ machine.edit.text)
    (numbered : (Line.ofCodes machine.edit.text).number ≠ 0)
    (statement : (Line.ofCodes machine.edit.text).body ≠ [])
    (entered : (machine.press .enter).1 = true) :
    Line.ofCodes machine.edit.text ∈ (machine.press .enter).2.program.lines := by
  obtain ⟨lines, holds⟩ := sound.holds
  rw [(holds_press_enter holds oneLine numbered entered).lines_eq, Program.mem_inserted]
  exact .inr ⟨statement, rfl⟩

/-- Entering the number of a stored line leaves the program as it is only with that very line. -/
theorem press_enter_stored_iff {capacity : Nat} (sound : machine.program.Sound capacity)
    (oneLine : Code.newline ∉ machine.edit.text) {line : Line}
    (stored : line ∈ machine.program.lines) (statement : line.body ≠ [])
    (checks : Statement.Checks machine.config line.body)
    (number : (Line.ofCodes machine.edit.text).number = line.number) :
    (machine.press .enter).1 = true ∧
        (machine.press .enter).2.program.bytes = machine.program.bytes ↔
      Line.ofCodes machine.edit.text = line := by
  obtain ⟨lines, holds⟩ := sound.holds
  rw [holds.lines_eq] at stored
  have numbered := holds.ordered.numbered line stored
  have positive : (Line.ofCodes machine.edit.text).number ≠ 0 :=
    number ▸ Nat.ne_of_gt numbered.1
  constructor
  · rintro ⟨taken, bytes⟩
    obtain ⟨_, run⟩ := (press_enter_iff oneLine positive).mp ⟨taken, rfl⟩
    have after := holds.insert (number ▸ numbered) (Line.oneLine_ofCodes oneLine) run
    have same : (machine.press .enter).2.program.lines = machine.program.lines := by
      rw [Program.lines, bytes, ← Program.lines]
    rw [after.lines_eq, holds.lines_eq] at same
    rw [← same, Program.mem_inserted] at stored
    rcases stored with ⟨_, other⟩ | ⟨_, spelled⟩
    · exact absurd number.symm other
    · exact spelled.symm
  · rintro rfl
    have within : machine.program.bytes.length ≤ machine.program.capacity :=
      sound.capacity_eq ▸ sound.within
    obtain ⟨taken, program⟩ := (press_enter_iff oneLine positive).mpr
      ⟨checks, holds.insert_of_mem within stored statement⟩
    exact ⟨taken, by rw [program]⟩

/--
A line that is entered is stored. Whenever its listing is entered over it, the listing is
taken and leaves the program as it is exactly if the line comes back from its listing.
-/
theorem press_enter_recalled_iff {capacity : Nat} {typed : Machine H}
    (sound : typed.program.Sound capacity) (shown : ∀ code ∈ typed.edit.text, code < 0x40)
    (numbered : (Line.ofCodes typed.edit.text).number ≠ 0)
    (statement : (Line.ofCodes typed.edit.text).body ≠ [])
    (entered : (typed.press .enter).1 = true) :
    Line.ofCodes typed.edit.text ∈ (typed.press .enter).2.program.lines ∧
      (∀ machine : Machine H, machine.config = typed.config → machine.program.Sound capacity →
        Line.ofCodes typed.edit.text ∈ machine.program.lines →
        machine.edit.text = (Line.ofCodes typed.edit.text).listing machine.config.word →
        ((machine.press .enter).1 = true ∧
            (machine.press .enter).2.program.bytes = machine.program.bytes ↔
          Line.Relistable (Line.ofCodes typed.edit.text).body)) ∧
      ∀ size, Line.ofText ((Line.ofCodes typed.edit.text).text size) =
          Line.ofCodes typed.edit.text ↔
        Line.Relistable (Line.ofCodes typed.edit.text).body := by
  have oneLine := Code.newline_not_mem_shown shown
  refine ⟨mem_lines_press_enter sound oneLine numbered statement entered, ?_, fun size => ?_⟩
  · intro machine config sound stored listed
    have checks := ((press_enter_iff oneLine numbered).mp ⟨entered, rfl⟩).1
    have listedOneLine : Code.newline ∉ machine.edit.text := by
      rw [listed]
      exact Line.oneLine_listing (Line.oneLine_ofCodes oneLine) _
    have number : (Line.ofCodes machine.edit.text).number =
        (Line.ofCodes typed.edit.text).number := by
      rw [listed, (Line.ofCodes_listing shown numbered _).2]
    rw [press_enter_stored_iff sound listedOneLine stored statement (config ▸ checks) number,
      listed, Line.ofCodes_listing_iff shown numbered]
  · rw [Line.ofText_text shown numbered, Line.ofCodes_listing_iff shown numbered]

/-- A machine at which a line was typed whose letters make a word when they stand together. -/
def wordApart : Machine NoConsole :=
  { start {} NoConsole.mk with edit := EditLine.empty.setText (Code.encode "10 LET T O=1") }

/-- The line is stored, and is not taken again when it is brought back. -/
theorem press_enter_recalled_iff_wordApart :
    (wordApart.press .enter).1 = true ∧
      ((wordApart.press .enter).2.recallLine 0).edit.text = Code.encode "10 LET TO=1" ∧
      (((wordApart.press .enter).2.recallLine 0).press .enter).1 = false ∧
      ¬Line.Relistable (Line.ofText "10 LET T O=1").body := by
  have sound : wordApart.program.Sound wordApart.config.programSize :=
    Program.sound_empty (by decide)
  have stored : wordApart.program.insert 10 (Line.ofText "10 LET T O=1").body =
      .ok (wordApart.press .enter).2.program := rfl
  have kept := sound.insert ⟨by decide, by decide⟩ (by decide) stored
  have shown : ∀ code ∈ wordApart.edit.text, code < 0x40 := by
    have all : wordApart.edit.text.all (· < 0x40) = true := rfl
    simpa only [List.all_eq_true, decide_eq_true_eq] using all
  obtain ⟨member, recalled, _⟩ := press_enter_recalled_iff sound shown (by decide)
    (by decide) (show (wordApart.press .enter).1 = true from rfl)
  have refused : (((wordApart.press .enter).2.recallLine 0).press .enter).1 = false := rfl
  refine ⟨rfl, rfl, refused, fun relistable => ?_⟩
  have taken := (recalled ((wordApart.press .enter).2.recallLine 0) rfl kept member rfl).mpr
    relistable
  rw [refused] at taken
  cases taken.1

end Machine
end HomeBasic
