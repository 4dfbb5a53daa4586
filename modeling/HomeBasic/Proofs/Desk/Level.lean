import HomeBasic.Proofs.Desk.Twins

/-!
# Desks at the same place of a line

Two scanners are level when they stand at the same place of the same bytes. Whether a
cursor is watched, and what was found out about it, makes no difference to what they read;
where it is watched alike, they are equal. Level scanners take every step together, and so
do the desks that they stand at.

Main statements: every step of the desk mirrors itself (`level_look_bind`,
`level_expect`, …), and level scanners are twins (`Level.twins`, `Level.of_twins`).
-/

namespace HomeBasic

open Attempt (Matches Mirrored)

namespace Scanner

/-- Two scanners stand at the same place of the same bytes. -/
structure Level (same : Prop) (first second : Scanner) : Prop where
  rest : second.rest = first.rest
  position : second.position = first.position
  equal : same → second = first

namespace Level

variable {same : Prop} {first second : Scanner}

theorem line (level : Level same first second) : second.line = first.line := by
  rw [Scanner.line, Scanner.line, level.rest]

theorem current (level : Level same first second) : second.current = first.current := by
  rw [Scanner.current, Scanner.current, level.rest]

theorem codesLeft (level : Level same first second) : second.codesLeft = first.codesLeft :=
  congrArg List.length level.line

theorem nameAhead (level : Level same first second) : second.nameAhead = first.nameAhead := by
  rw [Scanner.nameAhead, Scanner.nameAhead, level.rest]

theorem pass (level : Level same first second) (count : Nat) :
    Level same (first.pass count) (second.pass count) where
  rest := by rw [rest_pass, rest_pass, level.rest]
  position := by rw [position_pass, position_pass, level.position]
  equal holds := by rw [level.equal holds]

theorem look (level : Level same first second) : Level same first.look second.look where
  rest := by rw [look_rest_eq_drop, look_rest_eq_drop, level.rest]
  position := by
    simp only [Scanner.look, position_noteCursor, skipSpaces, position_pass, level.rest,
      level.position]
  equal holds := by rw [level.equal holds]

theorem skip (level : Level same first second) (count : Nat) :
    Level same (first.skip count) (second.skip count) := by
  rw [Scanner.skip, Scanner.skip, level.codesLeft]
  exact level.pass _

theorem advance (level : Level same first second) : Level same first.advance second.advance :=
  (level.skip 1).look

theorem skipToEnd (level : Level same first second) :
    Level same first.skipToEnd second.skipToEnd := by
  rw [Scanner.skipToEnd, Scanner.skipToEnd, level.codesLeft]
  exact level.pass _

theorem expecting (level : Level same first second) (expected : Bool) :
    Level same { first with wordExpected := expected }
      { second with wordExpected := expected } where
  rest := level.rest
  position := level.position
  equal holds := by rw [level.equal holds]

/-- What level scanners keep to: all codes of the line are read, whatever they are. -/
def course (same : Prop) (lineEnd : Nat) : Course :=
  ⟨same, True, true, true, [], lineEnd, lineEnd, .inl rfl⟩

theorem twins (level : Level same first second) :
    Twins (course same (first.position + first.line.length)) first second where
  line := level.line.trans (List.append_nil _).symm
  tidy := Code.tidy_anything
  firstEnd := rfl
  secondEnd := by rw [level.position, level.line]; rfl
  equal := level.equal
  level _ := level.rest

theorem of_twins {lineEnd : Nat} (twins : Twins (course same lineEnd) first second) :
    Level same first second where
  rest := twins.level trivial
  position := by
    have line : second.line = first.line := twins.line.trans (List.append_nil _)
    have firstEnd := twins.firstEnd
    have secondEnd := twins.secondEnd
    rw [line] at secondEnd
    exact Nat.add_right_cancel (secondEnd.trans firstEnd.symm)
  equal := twins.equal

end Level
end Scanner

namespace Desk

/-- Two desks at the same place of a line, with the same operations pending. -/
structure Level {H K : Type} (same : Prop) (meet : H → K → Prop) (desk : Desk H)
    (opposite : Desk K) : Prop where
  scanner : Scanner.Level same desk.scanner opposite.scanner
  calculator : opposite.calculator = desk.calculator
  console : meet desk.console opposite.console

variable {H K α : Type} {same : Prop} {meet : H → K → Prop}

theorem level_scanning {step : Attempt Scanner α}
    (mirrored : Mirrored (Scanner.Level same) step step (Scanner.Level same)) :
    Mirrored (Level same meet) (scanning step : Attempt (Desk H) α)
      (scanning step : Attempt (Desk K) α) (Level same meet) := by
  intro desk opposite level
  have reached := mirrored desk.scanner opposite.scanner level.scanner
  simp only [scanning, Attempt.within_apply]
  exact ⟨reached.1, reached.2, level.calculator, level.console⟩

theorem level_look :
    Mirrored (Level same meet) (look : Attempt (Desk H) Code) (look : Attempt (Desk K) Code)
      (Level same meet) := by
  intro desk opposite level
  have looked := level.scanner.look
  rw [look_apply, look_apply]
  exact ⟨congrArg Except.ok looked.current, looked, level.calculator, level.console⟩

theorem level_advance :
    Mirrored (Level same meet) (advance : Attempt (Desk H) Unit)
      (advance : Attempt (Desk K) Unit) (Level same meet) :=
  level_scanning fun _ _ level => ⟨rfl, level.advance⟩

theorem level_skip (count : Nat) :
    Mirrored (Level same meet) (skip count : Attempt (Desk H) Unit)
      (skip count : Attempt (Desk K) Unit) (Level same meet) :=
  level_scanning fun _ _ level => ⟨rfl, level.skip count⟩

theorem level_skipToEnd :
    Mirrored (Level same meet) (scanning (modify Scanner.skipToEnd) : Attempt (Desk H) PUnit)
      (scanning (modify Scanner.skipToEnd) : Attempt (Desk K) PUnit) (Level same meet) :=
  level_scanning fun _ _ level => ⟨rfl, level.skipToEnd⟩

theorem level_expect (code : Code) :
    Mirrored (Level same meet) (expect code : Attempt (Desk H) Unit)
      (expect code : Attempt (Desk K) Unit) (Level same meet) := by
  intro desk opposite level
  have looked := level.scanner.look
  rw [expect_apply, expect_apply, looked.current]
  split
  · exact ⟨rfl, looked.advance, level.calculator, level.console⟩
  · exact ⟨rfl, looked, level.calculator, level.console⟩

theorem level_expectEnd :
    Mirrored (Level same meet) (expectEnd : Attempt (Desk H) Unit)
      (expectEnd : Attempt (Desk K) Unit) (Level same meet) := by
  intro desk opposite level
  have looked := level.scanner.look
  rw [expectEnd_apply, expectEnd_apply, looked.current]
  split
  · exact ⟨rfl, looked, level.calculator, level.console⟩
  · exact ⟨rfl, looked, level.calculator, level.console⟩

theorem level_readName :
    Mirrored (Level same meet) (readName : Attempt (Desk H) (Name × NameUse))
      (readName : Attempt (Desk K) (Name × NameUse)) (Level same meet) := by
  intro desk opposite level
  rw [readName_apply, readName_apply, level.scanner.nameAhead, level.scanner.rest]
  split
  · exact ⟨rfl, level⟩
  · exact ⟨rfl, level⟩

/-- Steps that mirror each other at twin scanners do so at level ones. -/
theorem level_of_twins {left : Attempt (Desk H) α} {right : Attempt (Desk K) α}
    (mirrored : ∀ course, Mirrored (Twins course meet) left right (Twins course meet)) :
    Mirrored (Level same meet) left right (Level same meet) := by
  intro desk opposite level
  have reached := mirrored _ desk opposite
    ⟨level.scanner.twins, level.calculator, level.console⟩
  exact ⟨reached.1, .of_twins reached.2.scanner, reached.2.calculator, reached.2.console⟩

end Desk
end HomeBasic
