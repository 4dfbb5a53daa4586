import HomeBasic.Code
import HomeBasic.Number.WordSize

/-!
# Decimal text

Numbers are written in decimal with a leading minus for the negative ones, and
read back from such text with any number of leading zeros. Main statement:
writing a number puts its decimal digits down (`valueOf_digits`).
-/

namespace HomeBasic
namespace Decimal

/-- The digits of a natural number, most significant first. -/
def digits (value : Nat) : List Code :=
  (Nat.toDigits 10 value).map fun digit => UInt8.ofNat (digit.toNat - 0x20)

/-- The number that digits denote. -/
def valueOf (digits : List Code) : Nat :=
  digits.foldl (fun value digit => 10 * value + digit.digitValue) 0

/-- A number as it is printed. -/
def format (value : Int) : List Code :=
  if value < 0 then Code.minus :: digits value.natAbs else digits value.natAbs

/--
The number that digits denote behind those of a number read before, unless it gets larger
than a limit on the way.
-/
def magnitude? (limit : Nat) : List Code → Nat → Option Nat
  | [], magnitude => some magnitude
  | code :: rest, magnitude =>
      if code.isDigit then
        let grown := 10 * magnitude + code.digitValue
        if limit < grown then none else magnitude? limit rest grown
      else
        none

/--
The number that fills all of a text: an optional minus, then digits. Reading stops where the
digits denote more than even the smallest word has for a magnitude.
-/
def parse? (size : WordSize) (codes : List Code) : Option Int :=
  let negative := codes.head? == some Code.minus
  let digits := if negative then codes.tail else codes
  if digits.isEmpty then
    none
  else
    (magnitude? (size.maximum.toNat + 1) digits 0).bind fun magnitude =>
      let value : Int := if negative then -magnitude else magnitude
      if size.Fits value then some value else none

theorem valueOf_append_singleton (codes : List Code) (digit : Code) :
    valueOf (codes ++ [digit]) = 10 * valueOf codes + digit.digitValue := by
  simp [valueOf]

private theorem digitValue_digitChar {value : Nat} (small : value < 10) :
    Code.digitValue (UInt8.ofNat ((Nat.digitChar value).toNat - 0x20)) = value := by
  have every : ∀ digit : Fin 10,
      Code.digitValue (UInt8.ofNat ((Nat.digitChar digit.val).toNat - 0x20)) = digit.val := by
    decide
  exact every ⟨value, small⟩

/-- The digits of a number denote it. -/
@[simp] theorem valueOf_digits (value : Nat) : valueOf (digits value) = value := by
  induction value using Nat.strongRecOn with
  | ind value inductionHypothesis =>
      by_cases small : value < 10
      · simp [digits, Nat.toDigits_of_lt_base small, valueOf, digitValue_digitChar small]
      · have large : 10 ≤ value := Nat.le_of_not_lt small
        have split := Nat.toDigits_of_base_le (b := 10) (by decide) large
        have smaller := inductionHypothesis (value / 10) (by omega)
        simp only [digits] at smaller ⊢
        rw [split, List.map_append, List.map_singleton, valueOf_append_singleton, smaller,
          digitValue_digitChar (Nat.mod_lt _ (by decide))]
        omega

end Decimal
end HomeBasic
