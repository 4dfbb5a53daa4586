import HomeBasic.Proofs.Number.Words
import Mathlib.Algebra.Order.Ring.Int
import Mathlib.Algebra.Ring.Parity

/-!
# Exact arithmetic

Whatever is added, subtracted, multiplied, divided or raised to a power, the result is that of
arithmetic on the integers if a word holds it, and an overflow if none does. The ways in which a
product and a power are saved work make no difference to what comes of them.

Main statements: what a product and a power come to (`product_eq_checked`, `powerOf_eq_checked`),
how soon multiplying by the same factor ends (`length_products_le`), that any operator makes a
word of words (`fits_apply`), and all of it together (`exact_or_overflow`).
-/

namespace HomeBasic

namespace WordSize

variable {size : WordSize} {value : Int}

theorem checked_of_fits (fits : size.Fits value) : size.checked value = .ok value :=
  if_pos fits

theorem checked_of_not_fits (large : ¬size.Fits value) :
    size.checked value = .error .arithmeticOverflow :=
  if_neg large

theorem natAbs_le_of_fits (fits : size.Fits value) : value.natAbs ≤ 2 ^ (size.bits - 1) := by
  unfold Fits at fits
  cases size with
  | short =>
      have bound : value.natAbs ≤ 32768 := by
        simp only [minimum, maximum] at fits
        omega
      exact bound
  | long =>
      have bound : value.natAbs ≤ 2147483648 := by
        simp only [minimum, maximum] at fits
        omega
      exact bound

/-- A word holds no more than half of the integers of its number of bits. -/
theorem le_natAbs_of_not_fits (large : ¬size.Fits value) : 2 ^ (size.bits - 1) ≤ value.natAbs :=
  Nat.le_of_not_lt fun small => large (fits_of_natAbs_lt small)

theorem bits_pos (size : WordSize) : 1 ≤ size.bits := by
  cases size <;> decide

/-- The integers of a word have fewer bits than the word, their sign apart. -/
theorem lt_bits {length : Nat} (fits : size.Fits value) (reached : 2 ^ length ≤ value.natAbs) :
    length < size.bits := by
  have room := (Nat.pow_le_pow_iff_right (by decide)).mp (reached.trans (natAbs_le_of_fits fits))
  have positive := size.bits_pos
  omega

theorem fits_of_natAbs_le_one (small : value.natAbs ≤ 1) : size.Fits value :=
  fits_of_natAbs_lt (Nat.lt_of_le_of_lt small (by cases size <;> decide))

theorem fits_one (size : WordSize) : size.Fits 1 :=
  fits_of_natAbs_le_one (Nat.le_refl 1)

end WordSize

namespace Operator

variable {size : WordSize} {left right factor accumulated base exponent : Int}

/-! ## What arithmetic says -/

/-- The operators that compute a number by arithmetic. -/
def arithmetic : List Operator :=
  [add, subtract, multiply, divide, power]

/-- What arithmetic makes of two integers. A quotient is truncated, and there is none by zero; nor
is there a power to a negative exponent. -/
def trueResult? (left right : Int) : Operator → Option Int
  | add => some (left + right)
  | subtract => some (left - right)
  | multiply => some (left * right)
  | divide => if right = 0 then none else some (left.tdiv right)
  | power => if right < 0 then none else some (left ^ right.toNat)
  | _ => none

/-! ## Products -/

/-- A product fits without a check if its factors have few enough bits, and is checked if not. -/
theorem product_eq_checked (size : WordSize) (left right : Int) :
    product size left right = size.checked (left * right) := by
  unfold product
  split
  next short => exact (WordSize.checked_of_fits (fits_mul_of_bitLength short)).symm
  next => rfl

/-- The product of two words of any size fits twice the bits of the longer ones. -/
theorem natAbs_mul_lt (leftFits : size.Fits left) (rightFits : size.Fits right) :
    (left * right).natAbs < 2 ^ 63 := by
  have small : ∀ {value : Int}, size.Fits value → value.natAbs ≤ 2 ^ 31 := fun fits =>
    (WordSize.natAbs_le_of_fits fits).trans
      (Nat.pow_le_pow_right (by decide) (by cases size <;> decide))
  calc (left * right).natAbs
      = left.natAbs * right.natAbs := Int.natAbs_mul left right
    _ ≤ 2 ^ 31 * 2 ^ 31 := Nat.mul_le_mul (small leftFits) (small rightFits)
    _ < 2 ^ 63 := by decide

/-! ## One product after the other -/

/-- What the turns of a repeated product come to, the last of them an overflow if there is one. -/
def products (size : WordSize) (factor : Int) : Nat → Int → List (Except Fault Int)
  | 0, _ => []
  | count + 1, accumulated =>
      match product size accumulated factor with
      | .ok next => .ok next :: products size factor count next
      | .error fault => [.error fault]

/-- A repeated product is what its last turn comes to. -/
theorem repeatedProduct_eq_getLast (size : WordSize) (factor : Int) (count : Nat)
    (accumulated : Int) :
    repeatedProduct size factor count accumulated =
      (products size factor count accumulated).getLastD (.ok accumulated) := by
  induction count generalizing accumulated with
  | zero => rfl
  | succ count inductionHypothesis =>
      unfold repeatedProduct products
      cases product size accumulated factor with
      | error fault => rfl
      | ok next => exact (inductionHypothesis next).trans (List.getLastD_cons ..).symm

/-- With every turn the product has one bit more, so there are no more turns than bits. -/
theorem length_products_le (large : 2 ≤ factor.natAbs) {count length : Nat}
    (fits : size.Fits accumulated) (reached : 2 ^ length ≤ accumulated.natAbs) :
    (products size factor count accumulated).length + length ≤ size.bits := by
  induction count generalizing accumulated length with
  | zero =>
      rw [products, List.length_nil, Nat.zero_add]
      exact (WordSize.lt_bits fits reached).le
  | succ count inductionHypothesis =>
      unfold products
      rw [product_eq_checked]
      by_cases next : size.Fits (accumulated * factor)
      · have grown : 2 ^ (length + 1) ≤ (accumulated * factor).natAbs := by
          rw [Int.natAbs_mul, Nat.pow_succ]
          exact Nat.mul_le_mul reached large
        have others := inductionHypothesis next grown
        rw [WordSize.checked_of_fits next]
        dsimp only [List.length_cons]
        omega
      · have last := WordSize.lt_bits fits reached
        rw [WordSize.checked_of_not_fits next]
        dsimp only [List.length_singleton]
        omega

/-- What is beyond a word stays beyond it when it is multiplied further. -/
theorem not_fits_mul_pow (large : 2 ≤ factor.natAbs) {product : Int} (beyond : ¬size.Fits product)
    (count : Nat) : ¬size.Fits (product * factor ^ count) := by
  cases count with
  | zero => rwa [pow_zero, mul_one]
  | succ count =>
      intro fits
      have bound := WordSize.natAbs_le_of_fits fits
      have start := WordSize.le_natAbs_of_not_fits beyond
      have doubled : 2 ≤ (factor ^ (count + 1)).natAbs := by
        rw [Int.natAbs_pow]
        exact large.trans (Nat.le_self_pow (Nat.succ_ne_zero count) _)
      rw [Int.natAbs_mul] at bound
      have grown := Nat.mul_le_mul start doubled
      have positive : 0 < 2 ^ (size.bits - 1) := Nat.two_pow_pos _
      omega

/-- Multiplying again and again comes to the power, or overflows as soon as the power would. -/
theorem repeatedProduct_eq_checked (large : 2 ≤ factor.natAbs) (fits : size.Fits accumulated)
    (count : Nat) :
    repeatedProduct size factor count accumulated =
      size.checked (accumulated * factor ^ count) := by
  induction count generalizing accumulated with
  | zero =>
      rw [pow_zero, mul_one]
      exact (WordSize.checked_of_fits fits).symm
  | succ count inductionHypothesis =>
      unfold repeatedProduct
      rw [product_eq_checked, pow_succ', ← mul_assoc]
      by_cases next : size.Fits (accumulated * factor)
      · rw [WordSize.checked_of_fits next]
        exact inductionHypothesis next
      · rw [WordSize.checked_of_not_fits next,
          WordSize.checked_of_not_fits (not_fits_mul_pow large next count)]

/-- Multiplying by a factor of no size never overflows. -/
theorem repeatedProduct_of_small (small : factor.natAbs ≤ 1) (start : accumulated.natAbs ≤ 1)
    (count : Nat) :
    repeatedProduct size factor count accumulated =
      size.checked (accumulated * factor ^ count) := by
  induction count generalizing accumulated with
  | zero =>
      rw [pow_zero, mul_one]
      exact (WordSize.checked_of_fits (WordSize.fits_of_natAbs_le_one start)).symm
  | succ count inductionHypothesis =>
      have next : (accumulated * factor).natAbs ≤ 1 := by
        rw [Int.natAbs_mul]
        exact Nat.mul_le_mul start small
      unfold repeatedProduct
      rw [product_eq_checked, WordSize.checked_of_fits (WordSize.fits_of_natAbs_le_one next),
        pow_succ', ← mul_assoc]
      exact inductionHypothesis next

/-- A repeated product that starts at one is the power, if a word holds it. -/
theorem repeatedProduct_one (size : WordSize) (factor : Int) (count : Nat) :
    repeatedProduct size factor count 1 = size.checked (factor ^ count) := by
  rw [← one_mul (factor ^ count)]
  rcases Nat.lt_or_ge factor.natAbs 2 with small | large
  · exact repeatedProduct_of_small (Nat.le_of_lt_succ small) (by decide) count
  · exact repeatedProduct_eq_checked large size.fits_one count

/-! ## Powers -/

/-- The sign of a power of a negative number. -/
theorem neg_one_pow_eq (count : Nat) :
    (-1 : Int) ^ count = if (count : Int) % 2 == 1 then -1 else 1 := by
  rcases Nat.even_or_odd' count with ⟨half, rfl | rfl⟩
  · rw [pow_mul, neg_one_sq, one_pow, if_neg (by simp)]
  · rw [pow_succ, pow_mul, neg_one_sq, one_pow, one_mul, if_pos (by simp)]

/-- A power of two or of minus two, by its size and its sign. -/
theorem pow_of_two (two : base = 2 ∨ base = -2) (count : Nat) :
    base ^ count =
      if base < 0 && (count : Int) % 2 == 1 then -((2 ^ count : Nat) : Int)
      else ((2 ^ count : Nat) : Int) := by
  rw [Nat.cast_pow]
  obtain rfl | rfl := two
  · rfl
  · rw [neg_pow, neg_one_pow_eq]
    by_cases odd : ((count : Int) % 2 == 1) = true
    · rw [if_pos odd, if_pos (by rw [odd]; rfl), neg_one_mul]
      rfl
    · rw [if_neg odd, if_neg (by simpa using odd), one_mul]
      rfl

/-- A power of two that has more bits than a word fits only as its smallest integer. -/
theorem fits_two_pow_iff {count : Nat} (long : size.bits - 1 ≤ count) (negative : Bool) :
    size.Fits (if negative then -((2 ^ count : Nat) : Int) else ((2 ^ count : Nat) : Int)) ↔
      count = size.bits - 1 ∧ negative = true := by
  constructor
  · intro fits
    have bound := WordSize.natAbs_le_of_fits fits
    have magnitude :
        (if negative then -((2 ^ count : Nat) : Int) else ((2 ^ count : Nat) : Int)).natAbs =
          2 ^ count := by
      cases negative
      · exact Int.natAbs_natCast _
      · exact (Int.natAbs_neg _).trans (Int.natAbs_natCast _)
    rw [magnitude] at bound
    obtain rfl := Nat.le_antisymm ((Nat.pow_le_pow_iff_right (by decide)).mp bound) long
    refine ⟨rfl, ?_⟩
    cases negative with
    | true => rfl
    | false => cases size <;> exact absurd fits (by decide)
  · rintro ⟨rfl, rfl⟩
    cases size <;> decide

/-- The ways in which powers of small bases are worked out come to the same as multiplying. -/
theorem powerOf_eq_checked (size : WordSize) (base : Int) (count : Nat) :
    powerOf size base count = size.checked (base ^ count) := by
  have nonnegative : ¬(count : Int) < 0 := by omega
  have unit {value : Int} (small : value.natAbs ≤ 1) : size.checked value = .ok value :=
    WordSize.checked_of_fits (WordSize.fits_of_natAbs_le_one small)
  unfold powerOf
  dsimp only
  rw [if_neg nonnegative, Int.toNat_natCast]
  split
  next zero =>
    rw [zero, zero_pow_eq, unit (by split <;> decide)]
    simp only [Int.natCast_eq_zero]
  split
  next one =>
    rw [one, one_pow, unit (by decide)]
  split
  next minusOne =>
    rw [minusOne, neg_one_pow_eq, unit (by split <;> decide)]
  split
  next two =>
    have positive := size.bits_pos
    rw [pow_of_two two]
    split
    next below =>
      have small : count < size.bits - 1 := by omega
      rw [WordSize.checked_of_fits]
      · rfl
      · split
        · exact (fits_two_pow small).2
        · exact (fits_two_pow small).1
    next above =>
      have long : size.bits - 1 ≤ count := by omega
      have fits := fits_two_pow_iff long (decide (base < 0) && (count : Int) % 2 == 1)
      split
      next last =>
        have edge : count = size.bits - 1 := by omega
        have sign : (decide (base < 0) && (count : Int) % 2 == 1) = true := by simp [last.2]
        rw [WordSize.checked_of_fits (fits.mpr ⟨edge, sign⟩), if_pos sign, edge]
        cases size <;> rfl
      next beyond =>
        rw [WordSize.checked_of_not_fits]
        intro word
        obtain ⟨edge, sign⟩ := fits.mp word
        simp only [Bool.and_eq_true, decide_eq_true_eq] at sign
        exact beyond ⟨by omega, sign⟩
  next => exact repeatedProduct_one size base count

/-! ## Every operator -/

/-- An operator comes to what arithmetic says, if a word holds it. -/
theorem apply_eq_elim {operator : Operator} (listed : operator ∈ arithmetic) (size : WordSize)
    (left right : Int) :
    operator.apply size left right =
      (operator.trueResult? left right).elim (.error .arithmeticOverflow) size.checked := by
  simp only [arithmetic, List.mem_cons, List.not_mem_nil, or_false] at listed
  rcases listed with rfl | rfl | rfl | rfl | rfl
  · rfl
  · rfl
  · exact product_eq_checked size left right
  · change quotient size left right = (if right = 0 then none else _ : Option Int).elim _ _
    unfold quotient
    split <;> rfl
  · change powerOf size left right = (if right < 0 then none else _ : Option Int).elim _ _
    split
    next negative =>
      unfold powerOf
      exact if_pos negative
    next nonnegative =>
      obtain ⟨count, rfl⟩ := Int.eq_ofNat_of_zero_le (Int.not_lt.mp nonnegative)
      exact powerOf_eq_checked size left count

/-- An operator makes a word of words. -/
theorem fits_apply {operator : Operator} {result : Int} (fits : size.Fits right)
    (run : operator.apply size left right = .ok result) : size.Fits result := by
  by_cases listed : operator ∈ arithmetic
  · rw [apply_eq_elim listed] at run
    cases said : operator.trueResult? left right with
    | none =>
        rw [said] at run
        cases run
    | some number =>
        rw [said] at run
        exact WordSize.fits_of_checked run
  · cases operator with
    | absent =>
        cases run
        exact fits
    | add | subtract | multiply | divide | power => exact absurd (by decide) listed
    | and | or =>
        cases run
        exact size.fits_wrap _
    | equal | less | greater | lessEqual | greaterEqual | notEqual =>
        cases run
        exact fits_truth size _

/--
Machine arithmetic is exact or an overflow.

A sum, a difference, a product, a quotient or a power is the result that arithmetic gives, if
there is one and a word holds it, and an overflow in every other case. Factors that are multiplied
without a check have a product that a word holds, and the product of any two words has less than
sixty-four bits. A power of any base comes to what multiplying by the base again and again comes
to, and unless the base is zero or a unit that ends within as many turns as a word has bits.
-/
theorem exact_or_overflow (size : WordSize) (left right : Int) :
    (∀ operator ∈ arithmetic,
      (∀ result, operator.apply size left right = .ok result ↔
        operator.trueResult? left right = some result ∧ size.Fits result) ∧
      ∀ fault, operator.apply size left right = .error fault ↔
        fault = .arithmeticOverflow ∧
          ∀ result, operator.trueResult? left right = some result → ¬size.Fits result) ∧
    (bitLength left.natAbs + bitLength right.natAbs < size.bits → size.Fits (left * right)) ∧
    (size.Fits left → size.Fits right → (left * right).natAbs < 2 ^ 63) ∧
    (0 ≤ right → powerOf size left right = repeatedProduct size left right.toNat 1) ∧
    repeatedProduct size left right.toNat 1 =
      (products size left right.toNat 1).getLastD (.ok 1) ∧
    (2 ≤ left.natAbs → (products size left right.toNat 1).length ≤ size.bits) := by
  refine ⟨fun operator listed => ?_, fits_mul_of_bitLength, natAbs_mul_lt, fun nonnegative => ?_,
    repeatedProduct_eq_getLast size left right.toNat 1, fun large => ?_⟩
  · rw [apply_eq_elim listed]
    cases operator.trueResult? left right with
    | none => simp [eq_comm]
    | some exact =>
        simp only [Option.elim_some, WordSize.checked_eq_ok_iff, WordSize.checked_eq_error_iff,
          Option.some.injEq, forall_eq']
        refine ⟨fun result => ⟨?_, ?_⟩, fun fault => and_comm⟩
        · rintro ⟨fits, rfl⟩
          exact ⟨rfl, fits⟩
        · rintro ⟨rfl, fits⟩
          exact ⟨fits, rfl⟩
  · obtain ⟨count, rfl⟩ := Int.eq_ofNat_of_zero_le nonnegative
    rw [Int.toNat_natCast, repeatedProduct_one]
    exact powerOf_eq_checked size left count
  · have start : 2 ^ 0 ≤ (1 : Int).natAbs := Nat.le_refl 1
    exact length_products_le large size.fits_one start

/-- With words of sixteen bits `(-8)**5` is the smallest integer, after five turns. -/
theorem exact_or_overflow_minusEight :
    Operator.power ∈ arithmetic ∧ Operator.apply .short .power (-8) 5 = .ok (-32768) ∧
      powerOf .short (-8) 5 = repeatedProduct .short (-8) 5 1 ∧
      (products .short (-8) 5 1).length ≤ 16 := by
  obtain ⟨exact, -, -, loop, -, turns⟩ := exact_or_overflow .short (-8) 5
  exact ⟨by decide, ((exact .power (by decide)).1 _).mpr (by decide), loop (by decide),
    turns (by decide)⟩

end Operator
end HomeBasic
