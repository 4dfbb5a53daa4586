import HomeBasic.Proofs.Line.Bounds
import HomeBasic.Proofs.Machine.Retries
import HomeBasic.Proofs.Program.Agreement

/-!
# Programs that stay intact

Every code can be typed, and so can the byte that ends a line. The check of the edit line goes
no further than that, but the line is stored as it was typed, and then the program is not a row
of lines any more, or has a line that nobody entered. No other key and no command can do that.

Main statement: a program is intact until a numbered line is entered with such a byte in it,
and then it is not (`intact_press_enter_iff`).
-/

namespace HomeBasic

open Attempt (Sustains)
open Program (Agree)

/-- The statement begins within the line, so an end of line behind that is in it. -/
theorem EditLine.newline_mem_statement {edit : EditLine} {config : Config}
    (member : Code.newline ∈ edit.bytes.dropLast) :
    Code.newline ∈ edit.statement (edit.check config) := by
  rw [← List.take_append_drop (edit.check config).body edit.bytes.dropLast] at member
  refine (List.mem_append.mp member).resolve_left fun before => ?_
  have within := edit.body_check_le config
  have front : edit.bytes.dropLast.take (edit.check config).body <+:
      edit.bytes.takeWhile (· != Code.newline) := by
    refine List.prefix_of_prefix_length_le
      ((List.take_prefix _ _).trans (List.dropLast_prefix _)) (List.takeWhile_prefix _) ?_
    exact Nat.le_trans (List.length_take_le _ _) within
  have onLine := List.mem_takeWhile_imp (front.subset before)
  cases bne_iff_ne.mp onLine rfl

namespace Machine

variable {H : Type} [Console H] {machine changed : Machine H} {config : Config} {number : Nat}

/-- The program is a row of lines in ascending order, packed one after the other. -/
def Intact (machine : Machine H) : Prop :=
  ∃ lines, machine.program.Holds lines

/-- Enter takes the edit line as the line of a number. -/
structure Takes (machine : Machine H) (number : Nat) : Prop where
  taken : (machine.press .enter).1 = true
  accepted : (machine.edit.refresh.check machine.config).result = .ok number
  numbered : number ≠ 0

/-- Enter takes a numbered line within which a line ends. -/
def Breaches (machine : Machine H) : Prop :=
  (∃ number, machine.Takes number) ∧ Code.newline ∈ machine.edit.text

/-- A machine that came about by typing codes of any kind, with no numbered line taken within
which a line ends. -/
inductive Unbreached (config : Config) : Machine H → Prop
  | start (console : H) : Unbreached config (Machine.start config console)
  | press {machine : Machine H} {key : Key} (before : Unbreached config machine)
      (editing : machine.phase = .editing) (stays : key = .enter → ¬machine.Breaches) :
      Unbreached config (machine.press key).2
  | advance {machine : Machine H} (before : Unbreached config machine) :
      Unbreached config machine.advance
  | retype {machine : Machine H} (before : Unbreached config machine)
      (editing : machine.phase = .editing) :
      Unbreached config { machine with edit := machine.edit.clear }
  | outside {machine : Machine H} (before : Unbreached config machine) (console : H) :
      Unbreached config { machine with console }

/-! ## Entering a line -/

omit [Console H] in
/-- A line ends within the statement if one does in the text. -/
theorem newline_mem_typedStatement_iff :
    Code.newline ∈ machine.typedStatement ↔ Code.newline ∈ machine.edit.text := by
  constructor
  · contrapose
    intro oneLine
    rw [typedStatement_eq oneLine]
    exact Line.oneLine_ofCodes oneLine
  · intro member
    refine EditLine.newline_mem_statement ?_
    rw [EditLine.bytes, machine.edit.crunched_refresh]
    exact newline_mem_crunch member

/-- Enter changes the program only if it takes a numbered line. -/
theorem program_press_enter_or :
    (machine.press .enter).2.program = machine.program ∨ ∃ number, machine.Takes number := by
  have submitted := machine.submitted
  generalize answer : machine.press .enter = pair at submitted ⊢
  cases submitted with
  | blank | refused | direct | full => exact .inl rfl
  | stored numbered result =>
      exact .inr ⟨_, congrArg Prod.fst answer, result, numbered⟩

/-- A numbered line that is taken is stored. -/
theorem Takes.stored (takes : machine.Takes number) :
    machine.program.insert number machine.typedStatement =
      .ok (machine.press .enter).2.program := by
  obtain ⟨taken, accepted, numbered⟩ := takes
  have submitted := machine.submitted
  generalize machine.press .enter = answer at submitted taken ⊢
  cases submitted with
  | blank blank =>
      have oneLine : Code.newline ∉ machine.edit.text := fun member => by
        have space := List.all_eq_true.mp blank _ member
        exact absurd space (by decide)
      have direct := number_of_result oneLine accepted
      exact absurd (direct.symm.trans (Line.number_ofCodes_blank blank)) numbered
  | refused | full => cases taken
  | direct result => exact absurd (Except.ok.inj (accepted.symm.trans result)) numbered
  | stored _ result run =>
      cases Except.ok.inj (accepted.symm.trans result)
      exact run

/-- A numbered line keeps the program intact, and all lines of other numbers, exactly if no line
ends within it. -/
theorem Takes.intact_iff (takes : machine.Takes number) (intact : machine.Intact) :
    (machine.press .enter).2.Intact ∧
        Agree number (machine.press .enter).2.program machine.program ↔
      Code.newline ∉ machine.edit.text := by
  obtain ⟨lines, holds⟩ := intact
  have stored := takes.stored
  constructor
  · rintro ⟨⟨others, after⟩, agree⟩
    rw [← newline_mem_typedStatement_iff]
    exact holds.oneLine_of_insert (Nat.pos_of_ne_zero takes.numbered) stored after agree
  · intro oneLine
    have spelled := number_of_result oneLine takes.accepted
    have numbered : (Line.ofCodes machine.edit.text).number ≠ 0 :=
      fun none => takes.numbered (spelled.symm.trans none)
    obtain ⟨_, _, _, _, within⟩ := Line.exists_of_ofCodes numbered
    have within : 0 < number ∧ number ≤ Line.maxNumber :=
      ⟨Nat.pos_of_ne_zero takes.numbered, spelled ▸ within⟩
    rw [← newline_mem_typedStatement_iff] at oneLine
    exact ⟨⟨_, holds.insert within oneLine stored⟩, holds.agree_insert within oneLine stored⟩

/-! ## Steps -/

omit [Console H] in
theorem Intact.of_eq (intact : machine.Intact) (same : changed.program = machine.program) :
    changed.Intact := by
  obtain ⟨lines, holds⟩ := intact
  exact ⟨lines, same ▸ holds⟩

omit [Console H] in
theorem Bypasses.intact {α : Type} {step : Attempt (Machine H) α} (bypasses : Bypasses step) :
    Sustains Intact step fun _ => True :=
  Attempt.sustains_of_kept fun machine intact => intact.of_eq (bypasses.untouched machine).program

/-- Only a block that holds lines is loaded. -/
theorem intact_load (slot : Int) :
    Sustains Intact (load slot : Attempt (Machine H) Unit) fun _ => True := by
  refine Attempt.sustains_of_kept fun machine intact => ?_
  rcases load_cases slot machine with ⟨image, console, finds, run⟩ | ⟨-, fault, console, -, run⟩
  · rw [run]
    obtain ⟨block, -, -, program, -⟩ := finds.held
    exact (Program.sound_of_decode? program).holds
  · rw [run]
    exact intact.of_eq rfl

theorem intact_read (target : Target) :
    Sustains Intact (perform (.read target) : Attempt (Machine H) Unit) fun _ => True := by
  refine Attempt.sustains_of_kept fun reader intact => ?_
  have ⟨lines, holds⟩ := intact
  have retrieved : Retrieved reader reader.fetch := retrieved_nextItem holds.numbered _
  rw [perform_read]
  refine intact.of_eq ?_
  rw [(untouched_deliver target _).program, retrieved.program]

theorem intact_perform (command : Command) :
    Sustains Intact (perform command : Attempt (Machine H) Unit) fun _ => True := by
  by_cases leaves : command.LeavesItems
  · exact (bypasses_perform leaves).intact
  · cases command with
    | run start | restore start =>
        exact (Bypasses.intact (keeps_ofExcept _)).bind fun start _ =>
          Attempt.sustains_modify fun _ intact => intact
    | clear => exact Attempt.sustains_modify fun _ intact => intact
    | new =>
        exact Attempt.sustains_modify fun machine _ =>
          ⟨[], Program.holds_empty machine.program.capacity⟩
    | load slot => exact intact_load slot
    | read target => exact intact_read target
    | _ => exact absurd trivial leaves

theorem Intact.advance (intact : machine.Intact) : machine.advance.Intact := by
  cases order : machine.order? with
  | none => exact intact.of_eq (untouched_of_order_eq_none order).program
  | some found =>
      obtain ⟨command, carrier⟩ := found
      obtain ⟨same, inProgram, carried⟩ := advance_of_order order
      rw [carried]
      exact ((intact_perform command).kept (intact.of_eq same.program)).of_eq
        (Untouched.frame.proceed _ _).program

theorem Intact.press (intact : machine.Intact) {key : Key}
    (stays : key = .enter → ¬machine.Breaches) : (machine.press key).2.Intact := by
  by_cases enter : key = .enter
  · subst enter
    rcases machine.program_press_enter_or with same | ⟨number, takes⟩
    · exact intact.of_eq same
    · have oneLine : Code.newline ∉ machine.edit.text :=
        fun member => stays rfl ⟨⟨number, takes⟩, member⟩
      exact ((takes.intact_iff intact).mpr oneLine).1
  · exact intact.of_eq (untouched_press enter).program

/-! ## Sessions -/

theorem Unbreached.intact (unbreached : Unbreached config machine) : machine.Intact := by
  induction unbreached with
  | start console => exact ⟨[], Program.holds_empty config.programSize⟩
  | press before editing stays inductionHypothesis => exact inductionHypothesis.press stays
  | advance before inductionHypothesis => exact inductionHypothesis.advance
  | retype before editing inductionHypothesis => exact inductionHypothesis
  | outside before console inductionHypothesis => exact inductionHypothesis

/--
The program is a row of lines until a numbered line is taken within which a line ends.

Whatever is typed and carried out before that, the program consists of lines in ascending order,
each with one end. A numbered line that is taken then keeps the program so, and leaves all lines
of other numbers as they were, if and only if no line ends within it.
-/
theorem intact_press_enter_iff (unbreached : Unbreached config machine) :
    machine.Intact ∧
      (machine.phase = .editing → ∀ number, machine.Takes number →
        ((machine.press .enter).2.Intact ∧
            Agree number (machine.press .enter).2.program machine.program ↔
          Code.newline ∉ machine.edit.text)) :=
  ⟨unbreached.intact, fun _ _ takes => takes.intact_iff unbreached.intact⟩

/-- Codes that are typed breach nothing yet. -/
theorem Unbreached.codes (unbreached : Unbreached config machine)
    (editing : machine.phase = .editing) (codes : List Code) :
    Unbreached config (machine.pressAll (codes.map .code)) := by
  induction codes generalizing machine with
  | nil => exact unbreached
  | cons code rest inductionHypothesis =>
      obtain ⟨-, edit, glyph, codes, pressed⟩ :=
        exists_press machine (show Key.code code ≠ .enter from nofun)
      exact inductionHypothesis (unbreached.press editing nofun)
        ((congrArg Machine.phase pressed).trans editing)

/-- A machine at which the byte that ends a line was typed behind a line number. -/
def endTyped : Machine NoConsole :=
  (start {} NoConsole.mk).pressAll ([Code.zero + 1, Code.zero, Code.newline].map .code)

/-- When that line is entered, no end is left that would close the program. -/
theorem intact_press_enter_iff_endTyped :
    endTyped.Intact ∧ endTyped.Takes 10 ∧
      (endTyped.press .enter).2.program.bytes = [10, 0, Code.newline, Code.newline, 0, 0] ∧
      ¬((endTyped.press .enter).2.Intact ∧
        Agree 10 (endTyped.press .enter).2.program endTyped.program) := by
  have begins : Unbreached {} (start {} NoConsole.mk) := .start NoConsole.mk
  have typed : Unbreached {} endTyped := begins.codes rfl _
  have takes : endTyped.Takes 10 := ⟨by decide +kernel, by decide +kernel, by decide⟩
  obtain ⟨intact, kept⟩ := intact_press_enter_iff typed
  refine ⟨intact, takes, by decide +kernel, fun both => ?_⟩
  exact (kept (by decide +kernel) 10 takes).mp both (by decide +kernel)

end Machine
end HomeBasic
