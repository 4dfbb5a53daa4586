import HomeBasic.Number.Decimal

/-!
# Values

An expression yields a number or a text.
-/

namespace HomeBasic

/-- The value of an expression. -/
inductive Value
  | number (value : Int)
  | text (codes : List Code)
  deriving DecidableEq, Repr, Inhabited

namespace Value

/-- The value is a text. -/
def isText : Value → Bool
  | number _ => false
  | text _ => true

/-- The number, if the value is one. -/
def number? : Value → Option Int
  | number value => some value
  | text _ => none

/-- The codes that a value prints. -/
def printed : Value → List Code
  | number value => Decimal.format value
  | text codes => codes

@[simp] theorem isText_number (value : Int) : (number value).isText = false := rfl

@[simp] theorem isText_text (codes : List Code) : (text codes).isText = true := rfl

end Value
end HomeBasic
