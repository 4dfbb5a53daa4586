import HomeBasic.Bytes
import HomeBasic.Line

/-!
# Packed lines

A packed line is its number in two bytes, the crunched statement, and the byte
that ends a line. A line number of zero stands where no line is left.

Main statement: the line that was packed in front of some bytes is the one they
open with (`headLine?_packLine`).
-/

namespace HomeBasic
namespace Program

/-- The line number that packed bytes open with, zero where none is left. -/
def headNumber : List Code → Nat
  | low :: high :: _ => low.toNat + 256 * high.toNat
  | _ => 0

/-- The bytes that the first line takes; all that is left where it has no end. -/
def headLength (bytes : List Code) : Nat :=
  match (bytes.drop 2).findIdx? (· == Code.newline) with
  | some length => length + 3
  | none => bytes.length

/-- The line that packed bytes open with. -/
def headLine? (bytes : List Code) : Option Line :=
  if headNumber bytes = 0 then none
  else some ⟨headNumber bytes, (bytes.drop 2).take (headLength bytes - 3)⟩

/-- A line as it is packed. -/
def packLine (number : Nat) (statement : List Code) : List Code :=
  Bytes.toLittleEndian 2 number ++ statement ++ [Code.newline]

theorem headNumber_packLine {number : Nat} (small : number < 65536)
    (statement rest : List Code) :
    headNumber (packLine number statement ++ rest) = number := by
  simp [packLine, Bytes.toLittleEndian, headNumber]
  omega

theorem headLength_packLine {statement : List Code} (oneLine : Code.newline ∉ statement)
    (number : Nat) (rest : List Code) :
    headLength (packLine number statement ++ rest) = statement.length + 3 := by
  simp [headLength, packLine, Bytes.toLittleEndian, Bytes.findIdx?_first oneLine]

/-- A packed line is read back. -/
theorem headLine?_packLine {number : Nat} {statement : List Code}
    (numbered : number ≠ 0) (small : number < 65536) (oneLine : Code.newline ∉ statement)
    (rest : List Code) :
    headLine? (packLine number statement ++ rest) = some ⟨number, statement⟩ := by
  rw [headLine?, headNumber_packLine small, headLength_packLine oneLine, if_neg numbered]
  simp [packLine, Bytes.toLittleEndian]

end Program
end HomeBasic
