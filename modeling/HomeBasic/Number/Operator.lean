import HomeBasic.Code
import HomeBasic.Number.WordSize

/-!
# Operators

The binary operators, how tightly they bind, and what they compute. A result
that no machine word holds is an arithmetic overflow; comparisons yield -1 for
true and 0 for false. Texts know only `=`, `<` and `>`.
-/

namespace HomeBasic

/-- A binary operator. `absent` stands where an expression ends. -/
inductive Operator
  | absent
  | add
  | subtract
  | multiply
  | divide
  | power
  | and
  | or
  | equal
  | less
  | greater
  | lessEqual
  | greaterEqual
  | notEqual
  deriving DecidableEq, Repr, Inhabited

namespace Operator

/-- Binding strength: the higher binds tighter, and zero ends an expression. -/
def priority : Operator → Nat
  | absent => 0
  | or => 2
  | and => 3
  | equal | less | greater | lessEqual | greaterEqual | notEqual => 5
  | add | subtract => 6
  | divide => 7
  | multiply => 8
  | power => 10

/-- Only the absent operator has no priority. -/
theorem priority_eq_zero_iff {operator : Operator} :
    operator.priority = 0 ↔ operator = absent := by
  cases operator <;> simp [priority]

/-- The machine's truth values. -/
def truth (condition : Bool) : Int :=
  if condition then -1 else 0

/-- The number of bits that a natural number takes. -/
def bitLength (value : Nat) : Nat :=
  if value = 0 then 0 else value.log2 + 1

/-- A product. Where the bit lengths of the factors add up to less than a word it needs no check. -/
def product (size : WordSize) (left right : Int) : Except Fault Int :=
  if bitLength left.natAbs + bitLength right.natAbs < size.bits then
    .ok (left * right)
  else
    size.checked (left * right)

/-- A quotient, truncated; there is none by zero. -/
def quotient (size : WordSize) (left right : Int) : Except Fault Int :=
  if right = 0 then .error .arithmeticOverflow else size.checked (left.tdiv right)

/-- A product times a counted number of equal factors. It ends at the first overflow. -/
def repeatedProduct (size : WordSize) (factor : Int) : Nat → Int → Except Fault Int
  | 0, product => .ok product
  | count + 1, accumulated =>
      match product size accumulated factor with
      | .ok next => repeatedProduct size factor count next
      | .error fault => .error fault

/-- A power. A negative exponent overflows, and anything to the power of zero is one. -/
def powerOf (size : WordSize) (base exponent : Int) : Except Fault Int :=
  let top : Int := size.bits - 1
  let odd := exponent % 2 == 1
  if exponent < 0 then
    .error .arithmeticOverflow
  else if base = 0 then
    .ok (if exponent = 0 then 1 else 0)
  else if base = 1 then
    .ok 1
  else if base = -1 then
    .ok (if odd then -1 else 1)
  else if base = 2 ∨ base = -2 then
    if exponent < top then
      let magnitude : Int := Nat.pow 2 exponent.toNat
      .ok (if base < 0 && odd then -magnitude else magnitude)
    else if exponent = top ∧ base < 0 ∧ odd then
      .ok size.minimum
    else
      .error .arithmeticOverflow
  else
    repeatedProduct size base exponent.toNat 1

/-- The word whose bits combine those of two words. -/
def bitwise (size : WordSize) (combine : Nat → Nat → Nat) (left right : Int) : Int :=
  size.wrap (combine (size.toNat left) (size.toNat right))

/-- What an operator makes of two numbers. -/
def apply (size : WordSize) (operator : Operator) (left right : Int) : Except Fault Int :=
  match operator with
  | absent => .ok right
  | add => size.checked (left + right)
  | subtract => size.checked (left - right)
  | multiply => product size left right
  | divide => quotient size left right
  | power => powerOf size left right
  | and => .ok (bitwise size (· &&& ·) left right)
  | or => .ok (bitwise size (· ||| ·) left right)
  | equal => .ok (truth (left == right))
  | less => .ok (truth (left < right))
  | greater => .ok (truth (right < left))
  | lessEqual => .ok (truth (left ≤ right))
  | greaterEqual => .ok (truth (right ≤ left))
  | notEqual => .ok (truth (left != right))

/-- What an operator makes of two texts. Order is by code, a shorter text before its extensions. -/
def compareTexts (operator : Operator) (left right : List Code) : Except Fault Int :=
  match operator with
  | equal => .ok (truth (left == right))
  | less => .ok (truth (left < right))
  | greater => .ok (truth (right < left))
  | _ => .error .syntaxError

/-- The absolute value of a word; the smallest word is left alone. -/
def absolute (size : WordSize) (value : Int) : Int :=
  size.wrap value.natAbs

end Operator
end HomeBasic
