import HomeBasic.Machine.Basic
import HomeBasic.Proofs.Line.Items
import HomeBasic.Proofs.Program.Refinement

/-!
# The items of a program

The items of a program are those of its lines, in order. A `DATA` pointer has items ahead:
those of a line from one of them on, and those of the lines after it; or those of all lines
from a number on.

Main statement: the first line from a number on has its items in front of those of the
others (`Holds.find_cases`).
-/

namespace HomeBasic
namespace Program

/-- The lines from a number on. -/
def onward (number : Nat) (lines : List Line) : List Line :=
  lines.filter (number ≤ ·.number)

/-- The items of the lines from a number on, in order. -/
def itemsFrom (program : Program) (number : Nat) : List (List Code) :=
  (onward number program.lines).flatMap Line.items

variable {program : Program} {lines : List Line} {line : Line} {number : Nat}

theorem Ordered.onward_of_cons (ordered : Ordered lines) {rest : List Line}
    (opens : onward number lines = line :: rest) : onward (line.number + 1) lines = rest := by
  have first : number ≤ line.number := by
    have member : line ∈ onward number lines := by simp [opens]
    simpa using (List.mem_filter.mp member).2
  have same : ∀ other : Line, decide (line.number + 1 ≤ other.number) =
      (decide (line.number + 1 ≤ other.number) && decide (number ≤ other.number)) := by
    intro other
    by_cases above : line.number + 1 ≤ other.number
    · have within : number ≤ other.number := by omega
      simp [above, within]
    · simp [above]
  have narrowed : onward (line.number + 1) lines = onward (line.number + 1) (line :: rest) := by
    rw [← opens, onward, onward, onward, List.filter_filter]
    exact List.filter_congr fun other _ => same other
  have sorted : Ordered (line :: rest) := opens ▸ ordered.filter (number ≤ ·.number)
  rw [narrowed, onward, List.filter_cons_of_neg (by simp)]
  exact List.filter_eq_self.mpr fun other member => decide_eq_true (sorted.lt_of_mem member)

namespace Holds

theorem itemsFrom_eq (holds : program.Holds lines) (number : Nat) :
    program.itemsFrom number = (onward number lines).flatMap Line.items := by
  rw [itemsFrom, holds.lines_eq]

/-- A walk to a number finds the first line from it on, if there is one. -/
theorem find_cases (holds : program.Holds lines) (number : Nat) :
    (onward number lines = [] ∧ program.numberAt (program.find number).1 = 0) ∨
      ∃ line ∈ lines, ∃ after,
        onward number lines = line :: onward (line.number + 1) lines ∧
        program.numberAt (program.find number).1 = line.number ∧
        program.bytes.drop ((program.find number).1 + 2) = line.body ++ Code.newline :: after := by
  have place := holds.drop_find number
  rw [← List.append_assoc, ← packLines_append, holds.ordered.numberedBy_append_above] at place
  change _ = packLines (onward number lines) ++ terminator at place
  rw [numberAt, ← List.drop_drop, place]
  cases opens : onward number lines with
  | nil => exact .inl ⟨rfl, rfl⟩
  | cons line rest =>
      have member : line ∈ onward number lines := by simp [opens]
      have ordered : Ordered (line :: rest) := opens ▸ holds.ordered.filter (number ≤ ·.number)
      refine .inr ⟨line, (List.mem_filter.mp member).1, packLines rest ++ terminator, ?_,
        headNumber_packLines ordered _, ?_⟩
      · rw [holds.ordered.onward_of_cons opens]
      · rw [packLines_cons]
        simp [packLine, Bytes.toLittleEndian]

/-- The lines from the number of a line on begin with it. -/
theorem onward_of_mem (holds : program.Holds lines) (member : line ∈ lines) :
    onward line.number lines = line :: onward (line.number + 1) lines := by
  have first : (onward line.number lines).head? = some line := by
    rw [onward, List.head?_filter]
    exact holds.ordered.find?_of_mem member
  obtain ⟨rest, opens⟩ := List.head?_eq_some_iff.mp first
  rw [opens, holds.ordered.onward_of_cons opens]

/-- A line is got by its number. -/
theorem get?_of_mem (holds : program.Holds lines) (member : line ∈ lines) :
    program.get? line.number = some line := by
  rw [Program.get?, holds.find_fst, holds.lineAt?_find, holds.ordered.find?_of_mem member]
  simp

theorem numberAfter_of_mem (holds : program.Holds lines) (member : line ∈ lines) :
    Line.numberAfter line.number = line.number + 1 := by
  have bound := (holds.ordered.numbered line member).2
  exact Nat.mod_eq_of_lt (by simp only [Line.maxNumber] at bound; omega)

end Holds
end Program

namespace DataPointer

/-- The items ahead of a pointer, in order. -/
def ahead (program : Program) (pointer : DataPointer) : List (List Code) :=
  match pointer.offset with
  | none => program.itemsFrom pointer.line
  | some offset =>
      ((program.get? pointer.line).elim [] fun line => Code.items (line.body.drop offset)) ++
        program.itemsFrom (pointer.line + 1)

/-- If a pointer has an offset, an item begins there on the line that it names. -/
def AtItem (program : Program) (pointer : DataPointer) : Prop :=
  ∀ offset, pointer.offset = some offset →
    ∃ line ∈ program.lines, line.number = pointer.line ∧ line.ItemAt offset

/-- A pointer is behind all lines. -/
def AtEnd (program : Program) (pointer : DataPointer) : Prop :=
  pointer.offset = none ∧ ∀ line ∈ program.lines, line.number < pointer.line

variable {program : Program} {lines : List Line} {line : Line}

theorem atItem_fromLine (program : Program) (number : Nat) :
    (fromLine number).AtItem program := by
  intro offset some
  cases some

theorem atItem_of_mem (holds : program.Holds lines) (member : line ∈ lines) {offset : Nat}
    (place : line.ItemAt offset) : AtItem program ⟨line.number, some offset⟩ := by
  intro _ same
  obtain rfl := Option.some.inj same
  rw [holds.lines_eq]
  exact ⟨line, member, rfl, place⟩

theorem AtEnd.atItem {pointer : DataPointer} (behind : pointer.AtEnd program) :
    pointer.AtItem program := by
  intro offset some
  rw [behind.1] at some
  cases some

theorem ahead_of_mem (holds : program.Holds lines) (member : line ∈ lines) (offset : Nat) :
    ahead program ⟨line.number, some offset⟩ =
      Code.items (line.body.drop offset) ++ program.itemsFrom (line.number + 1) := by
  rw [ahead, holds.get?_of_mem member]
  rfl

/-- What is ahead are items of lines. -/
theorem exists_of_mem_ahead (holds : program.Holds lines) {pointer : DataPointer}
    (place : pointer.AtItem program) {item : List Code} (member : item ∈ pointer.ahead program) :
    ∃ line ∈ lines, item ∈ line.items := by
  have further {number : Nat} (member : item ∈ program.itemsFrom number) :
      ∃ line ∈ lines, item ∈ line.items := by
    rw [holds.itemsFrom_eq, List.mem_flatMap] at member
    obtain ⟨line, onward, member⟩ := member
    exact ⟨line, (List.mem_filter.mp onward).1, member⟩
  obtain ⟨number, _ | offset⟩ := pointer
  · exact further member
  · obtain ⟨line, stored, rfl, start⟩ := place offset rfl
    rw [holds.lines_eq] at stored
    rw [ahead_of_mem holds stored, List.mem_append] at member
    rcases member with here | behind
    · exact ⟨line, stored, start.items_suffix.subset here⟩
    · exact further behind

/-- If no line is left from the pointer on, it is behind all of them. -/
theorem atEnd_of_onward (holds : program.Holds lines) {pointer : DataPointer}
    (place : pointer.AtItem program) (none : Program.onward pointer.line lines = []) :
    pointer.AtEnd program := by
  constructor
  · cases stands : pointer.offset with
    | none => rfl
    | some offset =>
        obtain ⟨line, among, number, _⟩ := place offset stands
        rw [holds.lines_eq] at among
        have onward := holds.onward_of_mem among
        rw [number, none] at onward
        cases onward
  · intro line member
    rw [holds.lines_eq] at member
    have lower := List.filter_eq_nil_iff.mp none line member
    simpa using lower

/-- Behind all lines nothing is ahead. -/
theorem AtEnd.ahead_eq_nil {pointer : DataPointer} (behind : pointer.AtEnd program) :
    pointer.ahead program = [] := by
  obtain ⟨number, offset⟩ := pointer
  obtain rfl : offset = none := behind.1
  have none : Program.onward number program.lines = [] :=
    List.filter_eq_nil_iff.mpr fun line member => by
      simpa using behind.2 line member
  change program.itemsFrom number = []
  rw [Program.itemsFrom, none]
  rfl

end DataPointer
end HomeBasic
