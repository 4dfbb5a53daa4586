import HomeBasic.Program.Packing

/-!
# The program store

Packed lines in ascending order, and a line number of zero behind them. A line is
found by walking from the front, so an offset into the store goes stale with the
next change to it.
-/

namespace HomeBasic

/-- Packed lines in ascending order, and the room there is for them. -/
structure Program where
  bytes : List Code
  capacity : Nat
  deriving DecidableEq, Repr, Inhabited

namespace Program

/-- The line number of zero that ends a store. -/
def terminator : List Code := [0, 0]

/-! ## Walking the store -/

/-- A store without lines. -/
def empty (capacity : Nat) : Program :=
  ⟨terminator, capacity⟩

/-- The store without its lines. -/
def clear (program : Program) : Program :=
  empty program.capacity

/-- The line number at an offset, zero at the end. -/
def numberAt (program : Program) (offset : Nat) : Nat :=
  headNumber (program.bytes.drop offset)

/-- The store has no lines. -/
def isEmpty (program : Program) : Bool :=
  program.numberAt 0 == 0

/-- The offset of the line after the one at an offset. -/
def nextOffset (program : Program) (offset : Nat) : Nat :=
  match (program.bytes.drop (offset + 2)).findIdx? (· == Code.newline) with
  | some length => offset + length + 3
  | none => program.bytes.length

/-- The line at an offset, none at the end. -/
def lineAt? (program : Program) (offset : Nat) : Option Line :=
  headLine? (program.bytes.drop offset)

/--
Walks at most `steps` lines to the first numbered `number` or higher, from the
bytes at an offset; yields its offset and that of the line before it.
-/
def findFrom (number : Nat) :
    (steps : Nat) → (bytes : List Code) → (offset : Nat) → Option Nat → Nat × Option Nat
  | 0, _, offset, previous => (offset, previous)
  | steps + 1, bytes, offset, previous =>
      if headNumber bytes = 0 ∨ number ≤ headNumber bytes then
        (offset, previous)
      else
        let length := headLength bytes
        findFrom number steps (bytes.drop length) (offset + length) (some offset)

/-- The offset of the first line numbered `number` or higher, and that of the line before it. -/
def find (program : Program) (number : Nat) : Nat × Option Nat :=
  findFrom number program.bytes.length program.bytes 0 none

/-- The number of the first line numbered `number` or higher, zero if there is none. -/
def firstFrom (program : Program) (number : Nat) : Nat :=
  program.numberAt (program.find number).1

/-- The line of a number. -/
def get? (program : Program) (number : Nat) : Option Line :=
  (program.lineAt? (program.find number).1).filter (·.number == number)

/-- At most `steps` lines from the front of packed bytes. -/
def linesFrom : (steps : Nat) → List Code → List Line
  | 0, _ => []
  | steps + 1, bytes =>
      match headLine? bytes with
      | none => []
      | some line => line :: linesFrom steps (bytes.drop (headLength bytes))

/-- The lines of the store in order. -/
def lines (program : Program) : List Line :=
  linesFrom program.bytes.length program.bytes

/-- The lines from the first numbered `number` or higher. -/
def linesAfter (program : Program) (number : Nat) : List Line :=
  linesFrom program.bytes.length (program.bytes.drop (program.find number).1)

/-! ## Changing and reading the store -/

/-- The bytes that the line of a number takes, none if there is no such line. -/
def lengthOf (program : Program) (number : Nat) : Nat :=
  let offset := (program.find number).1
  if program.numberAt offset = number then program.nextOffset offset - offset else 0

/-- Stores a line in place of any of the same number; an empty statement deletes. -/
def insert (program : Program) (number : Nat) (statement : List Code) :
    Except Fault Program :=
  let offset := (program.find number).1
  let existing := program.lengthOf number
  let before := program.bytes.take offset
  let after := program.bytes.drop (offset + existing)
  if statement.isEmpty then
    .ok { program with bytes := before ++ after }
  else if program.capacity < program.bytes.length - existing + (statement.length + 3) then
    .error .outOfMemory
  else
    .ok { program with bytes := before ++ packLine number statement ++ after }

/--
The length of the store that bytes open with, its terminator included, if its
numbers ascend from above `last` and each of its lines has an end.
-/
def packedLength? : (steps : Nat) → (last : Nat) → List Code → Option Nat
  | steps + 1, last, low :: high :: rest =>
      let number := low.toNat + 256 * high.toNat
      if number = 0 then
        some 2
      else if number ≤ last ∨ Line.maxNumber < number then
        none
      else
        match rest.findIdx? (· == Code.newline) with
        | none => none
        | some length =>
            (packedLength? steps number (rest.drop (length + 1))).map (length + 3 + ·)
  | _, _, _ => none

/-- The store that a block opens with, if it is well formed and fits. -/
def decode? (capacity : Nat) (block : List Code) : Option Program :=
  match packedLength? (block.length + 1) 0 block with
  | some length => if length ≤ capacity then some ⟨block.take length, capacity⟩ else none
  | none => none

@[simp] theorem numberAt_empty (capacity : Nat) : (empty capacity).numberAt 0 = 0 := rfl

@[simp] theorem lines_empty (capacity : Nat) : (empty capacity).lines = [] := rfl

/-- The room of a store never changes. -/
theorem capacity_of_insert {program changed : Program} {number : Nat}
    {statement : List Code} (result : program.insert number statement = .ok changed) :
    changed.capacity = program.capacity := by
  simp only [insert] at result
  split at result
  · cases result; rfl
  · split at result
    · contradiction
    · cases result; rfl

end Program
end HomeBasic
