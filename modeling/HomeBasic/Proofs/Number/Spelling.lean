import HomeBasic.Proofs.Line.OneLine
import HomeBasic.Proofs.Number.Words
import Mathlib.Data.Nat.Digits.Lemmas

/-!
# How integers are spelled

A spelled integer is a row of decimal digits, the last of them for the units, with a minus in
front if it is to be negated (`Spells`). Reading such a text adds up a magnitude digit by digit
and gives up as soon as that gets larger than a word can have it.

Main statements: giving up early makes no difference, so a text is read as what it spells
exactly if that fits a word (`parse?_eq_some_iff`), and a word is written as a text that spells
it (`spells_format`).
-/

namespace HomeBasic
namespace Decimal

variable {size : WordSize} {codes digits : List Code} {limit start number : Nat} {value : Int}

/-- Codes that spell an integer. -/
inductive Spells : List Code → Int → Prop
  | plain {digits : List Code} (some : digits ≠ [])
      (number : ∀ code ∈ digits, code.isDigit = true) :
      Spells digits (Nat.ofDigits 10 (digits.reverse.map Code.digitValue) : Nat)
  | negated {digits : List Code} (some : digits ≠ [])
      (number : ∀ code ∈ digits, code.isDigit = true) :
      Spells (Code.minus :: digits) (-(Nat.ofDigits 10 (digits.reverse.map Code.digitValue) : Nat))

/-! ## Digits -/

/-- Each digit counts ten times as much as the one behind it. -/
theorem valueOf_eq_ofDigits (digits : List Code) :
    valueOf digits = Nat.ofDigits 10 (digits.reverse.map Code.digitValue) := by
  induction digits using List.reverseRecOn with
  | nil => rfl
  | append_singleton digits digit inductionHypothesis =>
      rw [valueOf_append_singleton, List.reverse_append, List.reverse_singleton,
        List.singleton_append, List.map_cons, Nat.ofDigits_cons, inductionHypothesis, Nat.add_comm]

/-- So many digits denote a number below that power of ten. -/
theorem valueOf_lt_pow {digits : List Code} (number : ∀ code ∈ digits, code.isDigit = true) :
    valueOf digits < 10 ^ digits.length := by
  rw [valueOf_eq_ofDigits]
  have small : ∀ digit ∈ digits.reverse.map Code.digitValue, digit < 10 := by
    intro digit member
    obtain ⟨code, inside, rfl⟩ := List.mem_map.mp member
    have isDigit := number code (List.mem_reverse.mp inside)
    simp only [Code.isDigit, Bool.and_eq_true, decide_eq_true_eq, UInt8.le_iff_toNat_le] at isDigit
    have nine : Code.nine.toNat = 25 := rfl
    have zero : Code.zero.toNat = 16 := rfl
    unfold Code.digitValue
    omega
  simpa using Nat.ofDigits_lt_base_pow_length (by decide) small

theorem digits_ne_nil (number : Nat) : Decimal.digits number ≠ [] := by
  rw [← List.length_pos_iff, Decimal.digits, List.length_map]
  exact Nat.length_toDigits_pos

/-! ## Magnitudes -/

/-- A magnitude never gets smaller with a further digit. -/
theorem le_foldl_digits (digits : List Code) (start : Nat) :
    start ≤ digits.foldl (fun number digit => 10 * number + digit.digitValue) start := by
  induction digits generalizing start with
  | nil => exact Nat.le_refl start
  | cons digit digits inductionHypothesis =>
      have grown := inductionHypothesis (10 * start + digit.digitValue)
      rw [List.foldl_cons]
      omega

/-- A magnitude is read to its end exactly if it does not pass the limit there. -/
theorem magnitude?_eq_some_iff (within : start ≤ limit) :
    magnitude? limit digits start = some number ↔
      (∀ code ∈ digits, code.isDigit = true) ∧ number ≤ limit ∧
        number = digits.foldl (fun number digit => 10 * number + digit.digitValue) start := by
  induction digits generalizing start with
  | nil =>
      rw [magnitude?, List.foldl_nil, Option.some_inj]
      constructor
      · rintro rfl
        exact ⟨fun _ member => (by cases member), within, rfl⟩
      · rintro ⟨-, -, rfl⟩
        rfl
  | cons code rest inductionHypothesis =>
      rw [magnitude?, List.forall_mem_cons, List.foldl_cons]
      by_cases digit : code.isDigit = true
      · rw [if_pos digit]
        dsimp only
        split
        next beyond =>
          -- The digits that are left are not looked at: no further digit leads back.
          refine iff_of_false (by simp) ?_
          rintro ⟨-, inside, rfl⟩
          have grown := le_foldl_digits rest (10 * start + code.digitValue)
          omega
        next inside =>
          rw [inductionHypothesis (Nat.le_of_not_lt inside)]
          simp only [digit, true_and]
      · rw [if_neg digit]
        exact iff_of_false (by simp) fun read => digit read.1.1

/-- No word has a magnitude beyond the limit, the smallest of them included. -/
theorem natAbs_le_limit (fits : size.Fits value) : value.natAbs ≤ size.maximum.toNat + 1 := by
  unfold WordSize.Fits at fits
  cases size <;> simp only [WordSize.minimum, WordSize.maximum] at * <;> omega

/-- What is made of a magnitude is the integer meant exactly if that fits a word. -/
theorem bind_magnitude?_eq_some_iff (negative : Bool) :
    ((magnitude? (size.maximum.toNat + 1) digits 0).bind fun magnitude =>
        let value : Int := if negative then -magnitude else magnitude
        if size.Fits value then some value else none) = some value ↔
      (∀ code ∈ digits, code.isDigit = true) ∧ size.Fits value ∧
        value = if negative then -(valueOf digits : Int) else valueOf digits := by
  simp only [Option.bind_eq_some_iff, magnitude?_eq_some_iff (Nat.zero_le _),
    Option.ite_none_right_eq_some, Option.some_inj, ← valueOf.eq_1]
  constructor
  · rintro ⟨magnitude, ⟨number, -, rfl⟩, fits, rfl⟩
    exact ⟨number, fits, rfl⟩
  · rintro ⟨number, fits, rfl⟩
    refine ⟨valueOf digits, ⟨number, ?_, rfl⟩, fits, rfl⟩
    have small := natAbs_le_limit fits
    cases negative <;> simpa using small

/-! ## Texts -/

/-- A text is read as the integer that it spells, exactly if a word holds that. -/
theorem parse?_eq_some_iff :
    parse? size codes = some value ↔ Spells codes value ∧ size.Fits value := by
  rw [parse?, Option.ite_none_left_eq_some, bind_magnitude?_eq_some_iff, valueOf_eq_ofDigits,
    List.isEmpty_iff]
  by_cases negative : (codes.head? == some Code.minus) = true
  · obtain ⟨digits, rfl⟩ : ∃ digits, codes = Code.minus :: digits := by
      simpa [List.head?_eq_some_iff] using negative
    simp only [if_pos negative, List.tail_cons]
    constructor
    · rintro ⟨some, number, fits, rfl⟩
      exact ⟨.negated some number, fits⟩
    · rintro ⟨spells, fits⟩
      cases spells with
      | plain _ number => exact absurd (number _ List.mem_cons_self) (by decide)
      | negated some number => exact ⟨some, number, fits, rfl⟩
  · simp only [if_neg negative]
    constructor
    · rintro ⟨some, number, fits, rfl⟩
      exact ⟨.plain some number, fits⟩
    · rintro ⟨spells, fits⟩
      cases spells with
      | plain some number => exact ⟨some, number, fits, rfl⟩
      | negated _ _ => exact absurd rfl negative

/-- A written integer spells that integer. -/
theorem spells_format (value : Int) : Spells (format value) value := by
  have some := digits_ne_nil value.natAbs
  have number : ∀ code ∈ Decimal.digits value.natAbs, code.isDigit = true :=
    fun _ => digit_of_mem_digits
  have denoted := valueOf_eq_ofDigits (Decimal.digits value.natAbs)
  rw [valueOf_digits] at denoted
  unfold format
  split
  next negative =>
    have spells := Spells.negated some number
    rw [← denoted, show -(value.natAbs : Int) = value by omega] at spells
    exact spells
  next positive =>
    have spells := Spells.plain some number
    rw [← denoted, show (value.natAbs : Int) = value by omega] at spells
    exact spells

/-- What is written of a word is read as that word. -/
theorem parse?_format (fits : size.Fits value) : parse? size (format value) = some value :=
  parse?_eq_some_iff.mpr ⟨spells_format value, fits⟩

/-- A row of digits is read as the number that they denote, exactly if a word holds that. -/
theorem parse?_digits (some : digits ≠ []) (number : ∀ code ∈ digits, code.isDigit = true) :
    parse? size digits =
      if size.Fits (valueOf digits) then .some (valueOf digits : Int) else none := by
  have spells := Spells.plain some number
  rw [← valueOf_eq_ofDigits] at spells
  split
  next fits => exact parse?_eq_some_iff.mpr ⟨spells, fits⟩
  next large =>
    rw [Option.eq_none_iff_forall_ne_some]
    intro value read
    obtain ⟨other, fits⟩ := parse?_eq_some_iff.mp read
    cases other with
    | plain => exact large (valueOf_eq_ofDigits digits ▸ fits)
    | negated => exact absurd (number _ List.mem_cons_self) (by decide)

end Decimal
end HomeBasic
