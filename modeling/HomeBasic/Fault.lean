/-!
# Faults and reports

A `Fault` is a reason for stopping. A report names the fault by one character
and the line it happened in; a direct line counts as line zero.
-/

namespace HomeBasic

/-- The reasons for which a line or a program stops. -/
inductive Fault
  | nextWithoutFor
  | variableNotFound
  | subscriptOutOfRange
  | outOfMemory
  | displayFull
  | arithmeticOverflow
  | returnWithoutGosub
  | inputNotInProgram
  | stopped
  | syntaxError
  deriving DecidableEq, Repr, Inhabited

namespace Fault

/-- The character a report opens with. -/
def reportChar : Fault → Char
  | nextWithoutFor => '1'
  | variableNotFound => '2'
  | subscriptOutOfRange => '3'
  | outOfMemory => '4'
  | displayFull => '5'
  | arithmeticOverflow => '6'
  | returnWithoutGosub => '7'
  | inputNotInProgram => '8'
  | stopped => '9'
  | syntaxError => 'C'

/-- The name of a fault in the manual. -/
def title : Fault → String
  | nextWithoutFor => "NEXT WITHOUT FOR"
  | variableNotFound => "VARIABLE NOT FOUND"
  | subscriptOutOfRange => "SUBSCRIPT OUT OF RANGE"
  | outOfMemory => "OUT OF MEMORY"
  | displayFull => "DISPLAY FULL"
  | arithmeticOverflow => "ARITHMETIC OVERFLOW"
  | returnWithoutGosub => "RETURN WITHOUT GOSUB"
  | inputNotInProgram => "INPUT NOT IN PROGRAM"
  | stopped => "STOPPED"
  | syntaxError => "SYNTAX ERROR"

/-- No two faults report alike. -/
theorem reportChar_injective {left right : Fault}
    (equal : left.reportChar = right.reportChar) : left = right := by
  cases left <;> cases right <;> simp_all [reportChar]

end Fault

/-- The text of a report: a character and a line number. -/
def reportText (character : Char) (line : Nat) : String :=
  String.singleton character ++ "/" ++ toString line

/-- A fault in its place: the line it happened in and, where known, the byte of that line. -/
structure LocatedFault where
  fault : Fault
  line : Nat
  position : Option Nat
  deriving DecidableEq, Repr

namespace LocatedFault

/-- The report of a fault. -/
def text (located : LocatedFault) : String :=
  reportText located.fault.reportChar located.line

/-- The report of a fault with the position it was found at. -/
def detail (located : LocatedFault) : String :=
  let place := match located.position with
    | some position => " @" ++ toString position
    | none => ""
  "Error \x7b " ++ located.text ++ place ++ " \x7d"

/-- The fault happened in a direct line. -/
def isDirect (located : LocatedFault) : Bool :=
  located.line == 0

end LocatedFault

end HomeBasic
