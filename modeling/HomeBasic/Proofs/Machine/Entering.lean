import HomeBasic.Proofs.Machine.Intact
import HomeBasic.Proofs.Machine.Typing

/-!
# Lines that are entered

The editor reads the number of a line as it stands in the crunched edit line, in sixteen bits
that wrap, and cuts its statement off where that reading stopped. A line is spelled by a text
on its own as well, with a number of its own. Still, a text that is typed and entered is stored
as the line that it spells, if it is stored at all.

Main statement: `enter_agrees`.
-/

namespace HomeBasic
namespace Machine

variable {H : Type} [Console H] {machine : Machine H} {number : Nat}

/-! ## Typing a text -/

/-- The machine with a text typed in place of its edit line. -/
def typed (steps : Nat) (text : String) (machine : Machine H) : Machine H :=
  (typeAll steps ((Code.encode text).map .code) { machine with edit := machine.edit.clear }).2

theorem enter_eq (steps : Nat) (text : String) (machine : Machine H) :
    machine.enter steps text = (machine.typed steps text).type steps .enter := rfl

/-- No step is taken between codes that are typed in the editor. -/
theorem typeAll_codes (editing : machine.phase = .editing) (steps : Nat) (codes : List Code) :
    (machine.typeAll steps (codes.map .code)).2 = machine.pressAll (codes.map .code) := by
  induction codes generalizing machine with
  | nil => rfl
  | cons code rest inductionHypothesis =>
      obtain ⟨-, edit, glyph, shown, pressed⟩ :=
        exists_press machine (show Key.code code ≠ .enter from nofun)
      have still : (machine.press (.code code)).2.phase = .editing := by
        rw [pressed]
        exact editing
      have settled : (machine.type steps (.code code)).2 = (machine.press (.code code)).2 :=
        settle_of_editing still steps
      rw [List.map_cons, typeAll]
      dsimp only
      rw [settled, inductionHypothesis still]
      rfl

/-- Typing a text leaves the program as it is, and the text in the edit line. -/
theorem kept_typed (editing : machine.phase = .editing) (steps : Nat) (text : String) :
    (machine.typed steps text).program = machine.program ∧
      (machine.typed steps text).phase = .editing ∧
      (machine.typed steps text).edit.text = Code.encode text := by
  let emptied : Machine H := { machine with edit := machine.edit.clear }
  obtain ⟨edit, glyph, console, pressed, held, -⟩ :=
    @exists_pressAll_codes _ emptied _ (Code.encode text) rfl
  have all : machine.typed steps text = emptied.pressAll ((Code.encode text).map .code) :=
    @typeAll_codes _ _ emptied editing steps (Code.encode text)
  rw [all, pressed]
  exact ⟨rfl, editing, held⟩

/-! ## Pressing enter -/

theorem kept_refreshEdit (machine : Machine H) :
    machine.refreshEdit.program = machine.program ∧ machine.refreshEdit.phase = machine.phase := by
  obtain ⟨edit, glyph, codes, shown, -⟩ := exists_refreshEdit machine
  rw [shown]
  exact ⟨rfl, rfl⟩

theorem kept_submitBlank (machine : Machine H) :
    machine.submitBlank.program = machine.program ∧ machine.submitBlank.phase = machine.phase := by
  obtain ⟨edit, glyph, console, listed, -⟩ := machine.exists_submitBlank
  rw [listed]
  exact ⟨rfl, rfl⟩

/-! ## The line that is spelled -/

section
variable (oneLine : Code.newline ∉ machine.edit.text)
include oneLine

/-- A numbered line that is taken is the one that the text spells, and it is stored at once. -/
theorem Takes.agrees (takes : machine.Takes number) :
    (Line.ofCodes machine.edit.text).number = number ∧
      machine.program.insert number (Line.ofCodes machine.edit.text).body =
        .ok (machine.press .enter).2.program ∧
      (machine.press .enter).2.phase = machine.phase := by
  refine ⟨number_of_result oneLine takes.accepted, typedStatement_eq oneLine ▸ takes.stored, ?_⟩
  have submitted := machine.submitted
  obtain ⟨taken, accepted, numbered⟩ := takes
  generalize machine.press .enter = answer at submitted taken ⊢
  cases submitted with
  | blank => exact machine.kept_submitBlank.2
  | refused | full => cases taken
  | direct result => cases numbered (Except.ok.inj (accepted.symm.trans result))
  | stored => exact (kept_refreshEdit _).2

/-- A line that spells a number is taken as a numbered line, or it is refused and not stored. -/
theorem takes_or_refused (numbered : (Line.ofCodes machine.edit.text).number ≠ 0) :
    machine.Takes (Line.ofCodes machine.edit.text).number ∨
      (machine.press .enter).1 = false ∧ (machine.press .enter).2.program = machine.program ∧
        (machine.press .enter).2.phase = machine.phase := by
  have submitted := machine.submitted
  generalize answer : machine.press .enter = pair at submitted ⊢
  cases submitted with
  | blank blank => exact absurd (Line.number_ofCodes_blank blank) numbered
  | refused => exact .inr ⟨rfl, kept_refreshEdit _⟩
  | full => exact .inr ⟨rfl, kept_refreshEdit _⟩
  | direct result => exact absurd (number_of_result oneLine result) numbered
  | stored _ result =>
      obtain rfl := number_of_result oneLine result
      exact .inl ⟨congrArg Prod.fst answer, result, numbered⟩

/-- A line that spells no number is refused, blank or carried out, and it is never stored. -/
theorem not_takes_of_direct (direct : (Line.ofCodes machine.edit.text).number = 0) :
    (∀ number, ¬machine.Takes number) ∧
      (((machine.press .enter).1 = false ∨
          machine.edit.isBlank = true ∧ machine.press .enter = (true, machine.submitBlank)) ∧
        (machine.press .enter).2.program = machine.program ∧
        (machine.press .enter).2.phase = machine.phase ∨
      machine.press .enter =
        (true, machine.examined.submitDirect (Line.ofCodes machine.edit.text).body)) := by
  constructor
  · intro number takes
    exact takes.numbered ((number_of_result oneLine takes.accepted).symm.trans direct)
  · have submitted := machine.submitted
    generalize machine.press .enter = answer at submitted ⊢
    cases submitted with
    | blank blank => exact .inl ⟨.inr ⟨blank, rfl⟩, machine.kept_submitBlank⟩
    | refused => exact .inl ⟨.inl rfl, kept_refreshEdit _⟩
    | direct => exact .inr (by rw [typedStatement_eq oneLine])
    | full numbered result | stored numbered result =>
        exact absurd ((number_of_result oneLine result).symm.trans direct) numbered

end

/--
The editor and the line that a text spells agree on what is stored.

If a text that is entered is taken as a numbered line, then it spells a line of that number, and
the program has the statement of that line stored under it, or no line of that number any more
if the statement is empty. A text that spells a numbered line is taken so unless it is refused.
A text that spells a line without a number is refused, or taken as blank, or carried out, and
only a statement that is carried out can change the program then.
-/
theorem enter_agrees (editing : machine.phase = .editing) (steps : Nat) (text : String) :
    let line := Line.ofText text
    let typed := machine.typed steps text
    let entered := machine.enter steps text
    (∀ number, typed.Takes number →
      line.number = number ∧ entered.1 = true ∧
        machine.program.insert number line.body = .ok entered.2.program ∧
        ∀ lines, machine.program.Holds lines →
          entered.2.program.Holds (Program.inserted number line.body lines)) ∧
    (line.number ≠ 0 → typed.Takes line.number ∨
      entered.1 = false ∧ entered.2.program = machine.program) ∧
    (line.number = 0 → (∀ number, ¬typed.Takes number) ∧
      ((entered.1 = false ∨ typed.edit.isBlank = true ∧ entered = (true, typed.submitBlank)) ∧
          entered.2.program = machine.program ∨
        typed.press .enter = (true, typed.examined.submitDirect line.body) ∧
          (typed.press .enter).2.program = machine.program)) := by
  dsimp only
  obtain ⟨program, phase, held⟩ := kept_typed editing steps text
  rw [enter_eq]
  generalize machine.typed steps text = typed at program phase held ⊢
  have oneLine : Code.newline ∉ typed.edit.text :=
    held ▸ Code.newline_not_mem_shown (Code.shown_encode text)
  have settles (still : (typed.press .enter).2.phase = typed.phase) :
      typed.type steps .enter = typed.press .enter :=
    Prod.ext rfl (settle_of_editing (still.trans phase) steps)
  rw [Line.ofText, ← held, ← program]
  refine ⟨fun number takes => ?_, fun numbered => ?_, fun direct => ?_⟩
  · obtain ⟨spelled, stored, still⟩ := takes.agrees oneLine
    rw [settles still]
    refine ⟨spelled, takes.taken, stored, fun lines holds => ?_⟩
    have numbered : (Line.ofCodes typed.edit.text).number ≠ 0 :=
      fun none => takes.numbered (spelled.symm.trans none)
    have after := holds_press_enter holds oneLine numbered takes.taken
    rwa [spelled] at after
  · refine (takes_or_refused oneLine numbered).imp_right fun outcome => ?_
    obtain ⟨refused, kept, still⟩ := outcome
    rw [settles still]
    exact ⟨refused, kept⟩
  · obtain ⟨never, ⟨outcome, kept, still⟩ | carried⟩ := not_takes_of_direct oneLine direct
    · rw [settles still]
      exact ⟨never, .inl ⟨outcome, kept⟩⟩
    · refine ⟨never, .inr ⟨carried, ?_⟩⟩
      rw [carried]
      rfl

/-- Digits may stand apart, with zeros in front, but there may not be more than four of them. -/
theorem enter_agrees_start :
    let machine := start {} NoConsole.mk
    machine.phase = .editing ∧ (machine.typed 1 " 0 1 0CLS").Takes 10 ∧
      (Line.ofText " 0 1 0CLS").number = 10 ∧
      (machine.enter 1 " 0 1 0CLS").2.program.Holds [⟨10, [StatementWord.cls.code]⟩] ∧
      (machine.enter 1 "00010CLS").1 = false ∧
      ∀ number, ¬(machine.typed 1 "00010CLS").Takes number := by
  intro machine
  have editing : machine.phase = .editing := rfl
  have takes : (machine.typed 1 " 0 1 0CLS").Takes 10 :=
    ⟨by decide +kernel, by decide +kernel, by decide⟩
  obtain ⟨taken, -, -⟩ := enter_agrees editing 1 " 0 1 0CLS"
  obtain ⟨-, -, direct⟩ := enter_agrees editing 1 "00010CLS"
  obtain ⟨spelled, -, -, holds⟩ := taken 10 takes
  have body : (Line.ofText " 0 1 0CLS").body = [StatementWord.cls.code] := by decide +kernel
  have stored := holds [] (Program.holds_empty _)
  rw [body] at stored
  exact ⟨editing, takes, spelled, stored, by decide +kernel, (direct (by decide +kernel)).1⟩

end Machine
end HomeBasic
