import HomeBasic.Line.Crunch

/-!
# Lines

A line is a line number and a crunched statement. A typed line has the number
its digits say if that is between 1 and the highest; any other line is direct,
numbered zero, and keeps its digits. A line is listed with a space on either
side of each spelled word, and never two of them together.
-/

namespace HomeBasic

/-- A crunched statement with its line number. Stored lines are numbered from 1, direct ones 0. -/
structure Line where
  number : Nat
  body : List Code
  deriving DecidableEq, Repr, Inhabited

namespace Line

/-- The highest number a stored line may have. -/
def maxNumber : Nat := 9999

/-- The number after a line number, in the sixteen bits that hold one. -/
def numberAfter (number : Nat) : Nat :=
  (number + 1) % 65536

/-- The line number that digits spell, if it is short enough and in range. -/
def numberOf? (digits : List Code) : Option Nat :=
  let number := Decimal.valueOf digits
  if 0 < digits.length ∧ digits.length ≤ 4 ∧ 0 < number ∧ number ≤ maxNumber then
    some number
  else
    none

/-- The line that was typed. -/
def ofCodes (text : List Code) : Line :=
  let bytes := (crunch text).bytes.dropLast
  let digits := bytes.takeWhile Code.isDigit
  match numberOf? digits with
  | some number => ⟨number, bytes.drop digits.length⟩
  | none => ⟨0, bytes⟩

/-- The line that a text spells. -/
def ofText (text : String) : Line :=
  ofCodes (Code.encode text)

/-- The line has no number. -/
def isDirect (line : Line) : Bool :=
  line.number == 0

/-- The line has no statement. -/
def isEmpty (line : Line) : Bool :=
  line.body.isEmpty

/-- A statement as it is listed; `spaced` says that no space is wanted before a word. -/
def listBody : Bool → List Code → List Code
  | _, [] => []
  | spaced, byte :: rest =>
      match Token.ofCode? byte with
      | none => byte :: listBody false rest
      | some token =>
          if token.isSpaced then
            (if spaced then [] else [Code.space]) ++ token.spellingCodes ++
              Code.space :: listBody true rest
          else
            token.spellingCodes ++ listBody false rest

/-- Codes without the spaces at their end. -/
def trimEnd (codes : List Code) : List Code :=
  (codes.reverse.dropWhile (· == Code.space)).reverse

/-- The line number as it is listed: a word of the machine, and nothing for a direct line. -/
def listNumber (size : WordSize) (number : Nat) : List Code :=
  if number = 0 then [] else Decimal.format (size.wrap number)

/-- The line as it is listed. -/
def listing (size : WordSize) (line : Line) : List Code :=
  trimEnd (listNumber size line.number ++ listBody line.isDirect line.body)

/-- The text of a listed line. -/
def text (size : WordSize) (line : Line) : String :=
  Code.decode (line.listing size)

end Line
end HomeBasic
