import HomeBasic.Proofs.Checked
import HomeBasic.Proofs.Scanner.Movement

/-!
# Bounds of a name

A name is cut out of the bytes that a scanner was set to, at the place it has come to and
with the length that was found by looking ahead. However far the scanner has moved, the
slice is within the bytes (`checkedName_eq`).
-/

namespace HomeBasic
namespace Scanner

open Checked

/-- The name at the scanner, cut out of the bytes it was set to, if it is not too long. -/
def checkedName (bytes : List Code) (scanner : Scanner) : Option (Except Fault Name) :=
  let length := scanner.nameAhead.2
  if maxNameLength < length then
    some (.error .syntaxError)
  else do
    let name ← slice? bytes scanner.position (scanner.position + length)
    return .ok name

/-- A scanner is at a place of bytes, and has the others from there on ahead. -/
def Over (bytes : List Code) (scanner : Scanner) : Prop :=
  scanner.rest = bytes.drop scanner.position

variable {bytes : List Code} {scanner started : Scanner}

theorem over_ofBytes (bytes : List Code) (position : Nat) : (ofBytes bytes position).Over bytes :=
  rfl

theorem over_ofEditLine (edit : EditLine) : (ofEditLine edit).Over edit.bytes :=
  rfl

/-- A scanner that moves on stays over its bytes. -/
theorem Over.follows (aligned : started.Over bytes) (follows : scanner.Follows started) :
    scanner.Over bytes := by
  obtain ⟨count, _, position, rest⟩ := follows
  rw [Over, rest, aligned, List.drop_drop, position]

/-- A name ends where the bytes end, if not before. -/
theorem length_nameAhead_le (letter : scanner.current.isLetter = true) :
    scanner.nameAhead.2 ≤ scanner.rest.length := by
  rw [nameAhead]
  rcases rest : scanner.rest with _ | ⟨code, others⟩
  · rw [current, rest] at letter
    exact absurd letter (by decide)
  · have inside := (List.takeWhile_sublist Code.isNameCode (l := others)).length_le
    rw [List.tail_cons, List.length_cons]
    omega

/-- The name at a letter is a slice of the bytes, however far a scanner has moved over them. -/
theorem checkedName_eq (aligned : started.Over bytes) (follows : scanner.Follows started)
    (letter : scanner.current.isLetter = true) :
    scanner.checkedName bytes = some (readName scanner.nameAhead.2 scanner).1 := by
  have ahead := aligned.follows follows
  have within := length_nameAhead_le letter
  have inside : scanner.position + scanner.nameAhead.2 ≤ bytes.length := by
    have short := List.length_drop (i := scanner.position) (l := bytes)
    rw [← ahead] at short
    have some : 0 < scanner.nameAhead.2 := Nat.lt_add_right _ Nat.one_pos
    omega
  unfold checkedName readName
  dsimp only
  split
  · rfl
  · rw [slice?_eq (Nat.le_add_right _ _) inside, List.drop_take, Nat.add_sub_cancel_left, ← ahead]
    rfl

end Scanner
end HomeBasic
