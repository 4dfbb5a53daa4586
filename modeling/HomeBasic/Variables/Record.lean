import HomeBasic.Code
import HomeBasic.Number.WordSize

/-!
# Variable records

What a variable holds, the family its name belongs to, and the bytes that its
record is accounted for.
-/

namespace HomeBasic

/-- What a variable holds. A loop variable is a number with a limit and a line to resume at. -/
inductive Variable
  | number (value : Int)
  | loop (value limit : Int) (resume : Nat)
  | array (values : List Int)
  | text (codes : List Code)
  deriving DecidableEq, Repr, Inhabited

/-- The families of variables. Names only collide within one. -/
inductive Family
  | numeric
  | array
  | text
  deriving DecidableEq, Repr, Inhabited

namespace Variable

/-- The family that a variable belongs to. -/
def family : Variable → Family
  | number _ | loop .. => .numeric
  | array _ => .array
  | text _ => .text

/-- The bytes that the contents take. -/
def payloadSize (size : WordSize) : Variable → Nat
  | number _ => size.byteCount
  | loop .. => 2 * size.byteCount + 2
  | array values => 1 + values.length * size.byteCount
  | text codes => codes.length + 1

end Variable

/-- The longest name a variable can have. -/
def maxNameLength : Nat := 63

/-- The highest index an array can have. -/
def maxArrayIndex : Int := 255

namespace Variables

/-- A named variable. -/
structure Record where
  name : Name
  contents : Variable
  deriving DecidableEq, Repr, Inhabited

namespace Record

/-- The bytes that a record takes: a header, the name and the contents. -/
def byteSize (size : WordSize) (record : Record) : Nat :=
  1 + record.name.length + record.contents.payloadSize size

/-- The record is that of a name in a family. -/
def isFor (record : Record) (name : Name) (family : Family) : Bool :=
  record.contents.family == family && record.name == name

end Record

end Variables
end HomeBasic
