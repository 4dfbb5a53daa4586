import HomeBasic.Proofs.Checked
import HomeBasic.Proofs.Program.Refinement

/-!
# Bounds of a program store

The lines of a store are cut out of its bytes at offsets that were found by walking it.
With every slice and every difference checked, a sound store still yields its lines and
takes new ones (`Sound.checkedLineAt`, `Sound.checkedLinesAfter`, `Sound.checkedInsert`),
and any block at all is read or refused (`checkedDecode_eq`).
-/

namespace HomeBasic
namespace Program

open Checked

variable {program : Program} {line : Line} {lines : List Line} {offset : Nat}

/-! ## With everything checked -/

/-- The line at an offset, none at the end. -/
def checkedLineAt (program : Program) (offset : Nat) : Option (Option Line) :=
  if program.numberAt offset = 0 then
    some none
  else do
    let last ← difference? (program.nextOffset offset) 1
    let body ← slice? program.bytes (offset + 2) last
    return some ⟨program.numberAt offset, body⟩

/-- At most so many lines from an offset on. -/
def checkedLinesFrom (program : Program) : (steps : Nat) → (offset : Nat) → Option (List Line)
  | 0, _ => some []
  | steps + 1, offset => do
      match ← program.checkedLineAt offset with
      | none => return []
      | some line => return line :: (← program.checkedLinesFrom steps (program.nextOffset offset))

/-- The lines from the first numbered `number` or higher. -/
def checkedLinesAfter (program : Program) (number : Nat) : Option (List Line) :=
  program.checkedLinesFrom program.bytes.length (program.find number).1

/-- The bytes that the line of a number takes, none if there is no such line. -/
def checkedLengthOf (program : Program) (number : Nat) : Option Nat :=
  let offset := (program.find number).1
  if program.numberAt offset = number then difference? (program.nextOffset offset) offset
  else some 0

/-- Stores a line under a number that a line may have; an empty statement deletes. -/
def checkedInsert (program : Program) (number : Nat) (statement : List Code) :
    Option (Except Fault Program) := do
  guard (0 < number ∧ number ≤ Line.maxNumber)
  let offset := (program.find number).1
  let existing ← program.checkedLengthOf number
  if statement.isEmpty then
    let bytes ← splice? program.bytes offset (offset + existing) []
    return .ok { program with bytes }
  else
    let others ← difference? program.bytes.length existing
    if program.capacity < others + (statement.length + 3) then
      return .error .outOfMemory
    else
      let bytes ←
        splice? program.bytes offset (offset + existing) (packLine number statement)
      return .ok { program with bytes }

/-- The length of the store in a block that was read up to an offset. -/
def checkedLength (block : List Code) : (steps offset last : Nat) → Option (Option Nat)
  | 0, _, _ => some none
  | steps + 1, offset, last =>
      match block[offset]?, block[offset + 1]? with
      | some low, some high => do
          let number := low.toNat + 256 * high.toNat
          if number = 0 then
            return some (offset + 2)
          else if number ≤ last ∨ Line.maxNumber < number then
            return none
          else
            match (← slice? block (offset + 2) block.length).findIdx? (· == Code.newline) with
            | none => return none
            | some length => checkedLength block steps (offset + (length + 3)) number
      | _, _ => some none

/-- The store that a block opens with, if it is well formed and fits. -/
def checkedDecode (capacity : Nat) (block : List Code) : Option (Option Program) := do
  match ← checkedLength block (block.length + 1) 0 0 with
  | none => return none
  | some length =>
      if length ≤ capacity then
        return some ⟨← slice? block 0 length, capacity⟩
      else
        return none

/-! ## Where lines start -/

/-- A store holds lines, some of which are those from an offset on. -/
def HoldsFrom (program : Program) (offset : Nat) (lines : List Line) : Prop :=
  ∃ before, program.Holds (before ++ lines) ∧ offset = (packLines before).length

namespace HoldsFrom

theorem exists_bytes (holds : program.HoldsFrom offset lines) :
    ∃ before, program.bytes = before ++ (packLines lines ++ terminator) ∧
      offset = before.length := by
  obtain ⟨before, holds, rfl⟩ := holds
  exact ⟨_, by rw [holds.bytes, packLines_append, List.append_assoc], rfl⟩

theorem drop (holds : program.HoldsFrom offset lines) :
    program.bytes.drop offset = packLines lines ++ terminator := by
  obtain ⟨before, bytes, rfl⟩ := holds.exists_bytes
  rw [bytes, List.drop_left]

theorem ordered (holds : program.HoldsFrom offset lines) : Ordered lines := by
  obtain ⟨before, holds, _⟩ := holds
  have ascending := List.pairwise_append.mp holds.ordered.ascending
  exact
    { ascending := ascending.2.1
      numbered := fun line member => holds.ordered.numbered line (List.mem_append_right _ member)
      oneLine := fun line member => holds.ordered.oneLine line (List.mem_append_right _ member) }

theorem numberAt_nil (holds : program.HoldsFrom offset []) : program.numberAt offset = 0 := by
  rw [numberAt, holds.drop]
  rfl

theorem numberAt_cons (holds : program.HoldsFrom offset (line :: lines)) :
    program.numberAt offset = line.number := by
  rw [numberAt, holds.drop, headNumber_packLines holds.ordered]

theorem nextOffset_cons (holds : program.HoldsFrom offset (line :: lines)) :
    program.nextOffset offset = offset + (line.body.length + 3) := by
  have oneLine := holds.ordered.oneLine line (by simp)
  have body : program.bytes.drop (offset + 2) =
      line.body ++ Code.newline :: (packLines lines ++ terminator) := by
    rw [← List.drop_drop, holds.drop, packLines_cons]
    simp [packLine, Bytes.toLittleEndian]
  rw [nextOffset, body, Bytes.findIdx?_first oneLine]
  exact Nat.add_assoc _ _ _

/-- The line after a line starts where that one ends. -/
theorem tail (holds : program.HoldsFrom offset (line :: lines)) :
    program.HoldsFrom (program.nextOffset offset) lines := by
  rw [holds.nextOffset_cons]
  obtain ⟨before, holds, rfl⟩ := holds
  refine ⟨before ++ [line], by simpa using holds, ?_⟩
  rw [packLines_append, List.length_append, packLines_cons, List.length_append,
    length_packLine]
  rfl

theorem lineAt?_eq (holds : program.HoldsFrom offset lines) :
    program.lineAt? offset = lines.head? := by
  rw [lineAt?, holds.drop, headLine?_packLines holds.ordered]

/-- The body of a line is a slice of the store. -/
theorem slice?_body (holds : program.HoldsFrom offset (line :: lines)) :
    slice? program.bytes (offset + 2) (offset + (line.body.length + 2)) = some line.body := by
  obtain ⟨before, bytes, rfl⟩ := holds.exists_bytes
  have parts : program.bytes = before ++ Bytes.toLittleEndian 2 line.number ++
      (line.body ++ (Code.newline :: (packLines lines ++ terminator))) := by
    rw [bytes, packLines_cons, packLine]
    simp
  rw [parts]
  exact slice?_append (by simp) (by simp; omega)

theorem checkedLineAt (holds : program.HoldsFrom offset lines) :
    program.checkedLineAt offset = some lines.head? := by
  unfold Program.checkedLineAt
  cases lines with
  | nil => rw [if_pos holds.numberAt_nil]; rfl
  | cons line lines =>
      have numbered := (holds.ordered.numbered line (by simp)).1
      rw [holds.numberAt_cons, if_neg (by omega), holds.nextOffset_cons,
        difference?_eq (by omega)]
      have last : offset + (line.body.length + 3) - 1 = offset + (line.body.length + 2) := by
        omega
      simp only [Option.bind_eq_bind, Option.bind_some, last, holds.slice?_body]
      rfl

theorem checkedLinesFrom (holds : program.HoldsFrom offset lines) (steps : Nat) :
    program.checkedLinesFrom steps offset = some (linesFrom steps (program.bytes.drop offset)) := by
  induction steps generalizing offset lines with
  | zero => rfl
  | succ steps inductionHypothesis =>
      rw [Program.checkedLinesFrom, linesFrom, holds.checkedLineAt, holds.drop,
        headLine?_packLines holds.ordered]
      cases lines with
      | nil => rfl
      | cons line lines =>
          have others := inductionHypothesis holds.tail
          have rest : (packLines (line :: lines) ++ terminator).drop
              (headLength (packLines (line :: lines) ++ terminator)) =
                program.bytes.drop (program.nextOffset offset) := by
            rw [headLength_packLines holds.ordered, packLines_cons, List.append_assoc,
              List.drop_left, holds.tail.drop]
          simp only [List.head?_cons, Option.bind_eq_bind, Option.bind_some, others, rest]
          rfl

end HoldsFrom

theorem Holds.holdsFrom_find (holds : program.Holds lines) (number : Nat) :
    program.HoldsFrom (program.find number).1 (lines.filter (number ≤ ·.number)) := by
  have parts := holds.ordered.below_append number
  rw [List.append_assoc, holds.ordered.numberedBy_append_above] at parts
  exact ⟨below number lines, parts.symm ▸ holds, holds.find_fst number⟩

/-- The line before a number is found by a number of its own. -/
theorem Holds.exists_find_of_before (holds : program.Holds lines) {number : Nat}
    (before : (program.find number).2 = some offset) :
    ∃ earlier, offset = (program.find earlier).1 := by
  rw [holds.find_eq] at before
  obtain ⟨line, _, rfl⟩ := Option.map_eq_some_iff.mp before
  exact ⟨line.number, (holds.find_fst line.number).symm⟩

/-! ## Sound stores -/

namespace Sound

variable {capacity : Nat} (sound : program.Sound capacity)
include sound

/-- There is room for the end of the store at least. -/
theorem two_le : 2 ≤ capacity := by
  obtain ⟨lines, holds⟩ := sound.holds
  have within := sound.within
  rw [holds.bytes, List.length_append] at within
  exact Nat.le_trans (Nat.le_add_left _ _) within

/-- Where a number is found, a line is cut out of the store, or there is none. -/
theorem checkedLineAt (number : Nat) :
    program.checkedLineAt (program.find number).1 =
      some (program.lineAt? (program.find number).1) := by
  obtain ⟨lines, holds⟩ := sound.holds
  have found := holds.holdsFrom_find number
  rw [found.checkedLineAt, found.lineAt?_eq]

/-- The line before the one where a number is found is cut out of the store. -/
theorem checkedLineAt_before {number : Nat} (before : (program.find number).2 = some offset) :
    program.checkedLineAt offset = some (program.lineAt? offset) := by
  obtain ⟨lines, holds⟩ := sound.holds
  obtain ⟨earlier, rfl⟩ := holds.exists_find_of_before before
  exact sound.checkedLineAt earlier

/-- The lines from a number on are cut out of the store one after the other. -/
theorem checkedLinesAfter (number : Nat) :
    program.checkedLinesAfter number = some (program.linesAfter number) := by
  obtain ⟨lines, holds⟩ := sound.holds
  exact (holds.holdsFrom_find number).checkedLinesFrom _

/-- A line that is found has a code where its statement starts, if only its end. -/
theorem exists_code {number : Nat} (found : program.firstFrom number ≠ 0) :
    ∃ code, program.bytes[(program.find number).1 + 2]? = some code := by
  obtain ⟨lines, holds⟩ := sound.holds
  have here := holds.holdsFrom_find number
  cases rest : lines.filter (number ≤ ·.number) with
  | nil => exact absurd (rest ▸ here).numberAt_nil found
  | cons line others =>
      have bytes := (rest ▸ here).drop
      have room : 2 < (program.bytes.drop (program.find number).1).length := by
        rw [bytes, packLines_cons, List.length_append, List.length_append, length_packLine]
        omega
      rw [← List.getElem?_drop]
      exact ⟨_, List.getElem?_eq_getElem room⟩

/-- The line of a number is a part of the store. -/
theorem find_add_lengthOf_le {number : Nat} (numbered : 0 < number) :
    (program.find number).1 + program.lengthOf number ≤ program.bytes.length := by
  obtain ⟨lines, holds⟩ := sound.holds
  rw [holds.find_fst, holds.lengthOf_eq numbered, holds.bytes_eq number]
  simp only [List.length_append]
  omega

theorem checkedLengthOf {number : Nat} (numbered : 0 < number) :
    program.checkedLengthOf number = some (program.lengthOf number) := by
  obtain ⟨lines, holds⟩ := sound.holds
  have here := holds.holdsFrom_find number
  unfold Program.checkedLengthOf lengthOf
  dsimp only
  cases rest : lines.filter (number ≤ ·.number) with
  | nil =>
      have ended := (rest ▸ here).numberAt_nil
      rw [ended, if_neg (by omega), if_neg (by omega)]
  | cons line others =>
      have next := (rest ▸ here).nextOffset_cons
      split
      · exact difference?_eq (by omega)
      · rfl

/-- A line is stored with every slice and every difference within bounds. -/
theorem checkedInsert {number : Nat} (numbered : 0 < number ∧ number ≤ Line.maxNumber)
    (statement : List Code) :
    program.checkedInsert number statement = some (program.insert number statement) := by
  have inside := sound.find_add_lengthOf_le numbered.1
  have guarded : (guard (0 < number ∧ number ≤ Line.maxNumber) : Option Unit) = some () :=
    if_pos numbered
  simp only [Program.checkedInsert, Program.insert, guarded, sound.checkedLengthOf numbered.1,
    splice?_eq (Nat.le_add_right _ _) inside, difference?_eq (Nat.le_of_add_left_le inside),
    Option.bind_eq_bind, Option.bind_some, List.append_nil]
  split
  · rfl
  · split <;> rfl

end Sound

/-! ## Loaded blocks -/

/-- Whatever a block is like, the lines in it are measured within it. -/
theorem checkedLength_eq {block : List Code} (steps : Nat) {offset : Nat}
    (inside : offset ≤ block.length) (last : Nat) :
    checkedLength block steps offset last =
      some ((packedLength? steps last (block.drop offset)).map (offset + ·)) := by
  induction steps generalizing offset last with
  | zero => rfl
  | succ steps inductionHypothesis =>
      have first : block[offset]? = (block.drop offset)[0]? := by rw [List.getElem?_drop]; rfl
      have second : block[offset + 1]? = (block.drop offset)[1]? := by rw [List.getElem?_drop]
      have length := List.length_drop (i := offset) (l := block)
      rw [checkedLength, first, second]
      rcases bytes : block.drop offset with _ | ⟨low, _ | ⟨high, rest⟩⟩
      · rfl
      · rfl
      · rw [bytes, List.length_cons, List.length_cons] at length
        have remaining : block.drop (offset + 2) = rest := by
          rw [← List.drop_drop, bytes]
          rfl
        have slice : slice? block (offset + 2) block.length = some rest := by
          rw [slice?_eq (by omega) (Nat.le_refl _), List.take_length, remaining]
        rw [packedLength?]
        dsimp only [List.getElem?_cons_zero, List.getElem?_cons_succ]
        split
        · rfl
        · split
          · rfl
          · simp only [slice, Option.bind_eq_bind, Option.bind_some]
            cases found : rest.findIdx? (· == Code.newline) with
            | none => rfl
            | some count =>
                have ended := (List.findIdx?_eq_some_iff_getElem.mp found).1
                have onward : block.drop (offset + (count + 3)) = rest.drop (count + 1) := by
                  rw [← remaining, List.drop_drop]
                  congr 1
                  omega
                dsimp only
                rw [inductionHypothesis (by omega), onward, Option.map_map]
                congr 2
                funext more
                dsimp only [Function.comp_apply]
                omega

theorem length_of_packedLength? {steps last length : Nat} {block : List Code}
    (read : packedLength? steps last block = some length) : length ≤ block.length := by
  induction steps generalizing last length block with
  | zero => cases read
  | succ steps inductionHypothesis =>
      rcases block with _ | ⟨low, _ | ⟨high, rest⟩⟩
      · cases read
      · cases read
      · simp only [packedLength?] at read
        rw [List.length_cons, List.length_cons]
        split at read
        next =>
          cases read
          omega
        next =>
          split at read
          next => cases read
          next =>
            split at read
            next => cases read
            next count found =>
              obtain ⟨others, measured, rfl⟩ := Option.map_eq_some_iff.mp read
              have ended := (List.findIdx?_eq_some_iff_getElem.mp found).1
              have further := inductionHypothesis measured
              rw [List.length_drop] at further
              omega

/-- Whatever block is loaded, it is read or refused with every slice within bounds. -/
theorem checkedDecode_eq (capacity : Nat) (block : List Code) :
    checkedDecode capacity block = some (decode? capacity block) := by
  have read := checkedLength_eq (block.length + 1) (Nat.zero_le block.length) 0
  simp only [checkedDecode, decode?, read, List.drop_zero, Nat.zero_add, Option.map_id',
    Option.bind_eq_bind, Option.bind_some]
  cases found : packedLength? (block.length + 1) 0 block with
  | none => rfl
  | some length =>
      have inside := length_of_packedLength? found
      dsimp only
      split
      · rw [slice?_eq (Nat.zero_le _) inside]
        rfl
      · rfl

end Program
end HomeBasic
