import HomeBasic.Number.Decimal
import HomeBasic.Number.Operator
import Mathlib.Algebra.GroupWithZero.Nat

/-!
# What fits a word

What is checked, wrapped or read is a word. A product whose factors have few enough bits needs
no check to be one, and neither does a power of two below the top bit.

Main statements: a word read from stored bytes fits (`fits_ofBytes`), and so does one read from
decimal text (`fits_parse?`) and the product of short factors (`fits_mul_of_bitLength`).
-/

namespace HomeBasic

namespace WordSize

variable {size : WordSize} {value : Int}

theorem fits_of_checked {result : Int} (run : size.checked value = .ok result) :
    size.Fits result := by
  obtain ⟨fits, rfl⟩ := checked_eq_ok_iff.mp run
  exact fits

theorem fits_wrap (size : WordSize) (value : Int) : size.Fits (size.wrap value) := by
  have positive : 0 < size.modulus := by
    cases size <;> decide
  have lower := Int.le_bmod (x := value) positive
  have upper := Int.bmod_lt (x := value) positive
  unfold Fits wrap
  cases size <;> simp only [minimum, maximum, modulus] at * <;> omega

theorem fits_ofBytes (size : WordSize) (bytes : List UInt8) : size.Fits (size.ofBytes bytes) :=
  fits_wrap size _

theorem fits_of_natAbs_lt (small : value.natAbs < 2 ^ (size.bits - 1)) : size.Fits value := by
  unfold Fits
  cases size with
  | short =>
      have small : value.natAbs < 32768 := small
      simp only [minimum, maximum]
      omega
  | long =>
      have small : value.natAbs < 2147483648 := small
      simp only [minimum, maximum]
      omega

theorem fits_byte (size : WordSize) (byte : UInt8) : size.Fits byte.toNat := by
  have bound := byte.toNat_lt
  apply fits_of_natAbs_lt
  cases size with
  | short =>
      have small : (byte.toNat : Int).natAbs < 32768 := by omega
      exact small
  | long =>
      have small : (byte.toNat : Int).natAbs < 2147483648 := by omega
      exact small

theorem fits_zero (size : WordSize) : size.Fits 0 := by
  cases size <;> decide

end WordSize

namespace Decimal

theorem fits_parse? {size : WordSize} {codes : List Code} {value : Int}
    (parsed : parse? size codes = some value) : size.Fits value := by
  rw [parse?, Option.ite_none_left_eq_some, Option.bind_eq_some_iff] at parsed
  obtain ⟨_, magnitude, _, read⟩ := parsed
  rw [Option.ite_none_right_eq_some] at read
  obtain ⟨fits, same⟩ := read
  cases same
  exact fits

end Decimal

namespace Operator

variable {size : WordSize}

theorem fits_truth (size : WordSize) (condition : Bool) : size.Fits (truth condition) := by
  cases size <;> cases condition <;> decide

theorem lt_two_pow_bitLength (value : Nat) : value < 2 ^ bitLength value := by
  unfold bitLength
  split
  next zero =>
    rw [zero]
    decide
  next => exact Nat.lt_log2_self

/-- Factors whose bits add up to less than a word have a product that fits. -/
theorem fits_mul_of_bitLength {left right : Int}
    (short : bitLength left.natAbs + bitLength right.natAbs < size.bits) :
    size.Fits (left * right) := by
  apply WordSize.fits_of_natAbs_lt
  calc (left * right).natAbs
      = left.natAbs * right.natAbs := Int.natAbs_mul left right
    _ < 2 ^ bitLength left.natAbs * 2 ^ bitLength right.natAbs :=
        Nat.mul_lt_mul'' (lt_two_pow_bitLength _) (lt_two_pow_bitLength _)
    _ = 2 ^ (bitLength left.natAbs + bitLength right.natAbs) := (Nat.pow_add ..).symm
    _ ≤ 2 ^ (size.bits - 1) := Nat.pow_le_pow_right (by decide) (by omega)

/-- A power of two below the top bit is a word. -/
theorem fits_two_pow {exponent : Nat} (small : exponent < size.bits - 1) :
    size.Fits (Nat.pow 2 exponent) ∧ size.Fits (-Nat.pow 2 exponent) := by
  have bound : Nat.pow 2 exponent < 2 ^ (size.bits - 1) :=
    Nat.pow_lt_pow_right (by decide) small
  exact ⟨WordSize.fits_of_natAbs_lt bound, WordSize.fits_of_natAbs_lt (by rwa [Int.natAbs_neg])⟩

theorem fits_compareTexts {operator : Operator} {left right : List Code} {result : Int}
    (run : operator.compareTexts left right = .ok result) : size.Fits result := by
  cases operator <;> cases run <;> exact fits_truth size _

end Operator
end HomeBasic
