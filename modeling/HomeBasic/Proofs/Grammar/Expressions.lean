import HomeBasic.Expression
import Mathlib.Tactic.SplitIfs

/-!
# The expressions of the language

What the priorities make of an expression is a tree. The codes of a tree hold no brackets but
its own, so a tree only stands for its codes where it is grouped as the priorities group them:
what is left of an operator has been closed when the operator comes (`Yields`), and what is
right of it binds tighter (`Tight`). A sign closes nothing, wherever it stands, and holds on to
all that binds tighter than it does.

Main definitions: the trees (`Expr`) with their codes, the well-formed ones among them
(`Expr.WellFormed`), and those there is room for (`Expr.Fits`).
-/

namespace HomeBasic

/-! ## Operators and their codes -/

namespace Operator

/-- The code an operator is written with. The absent one is seen at the end of a line. -/
def code : Operator → Code
  | absent => Code.newline
  | add => Code.plus
  | subtract => Code.minus
  | multiply => Code.star
  | divide => Code.slash
  | power => Keyword.power.code
  | and => Keyword.and.code
  | or => Keyword.or.code
  | equal => Code.equals
  | less => Code.less
  | greater => Code.greater
  | lessEqual => Keyword.lessEqual.code
  | greaterEqual => Keyword.greaterEqual.code
  | notEqual => Keyword.notEqual.code

@[simp] theorem ofCode_code (operator : Operator) : ofCode operator.code = operator := by
  cases operator <;> rfl

/-- A code stands for an operator exactly if the operator is written with it. -/
theorem code_ofCode {code : Code} (present : ofCode code ≠ absent) :
    (ofCode code).code = code := by
  revert present
  unfold ofCode
  split_ifs with plus minus star slash equals less greater
  · exact fun _ => plus.symm
  · exact fun _ => minus.symm
  · exact fun _ => star.symm
  · exact fun _ => slash.symm
  · exact fun _ => equals.symm
  · exact fun _ => less.symm
  · exact fun _ => greater.symm
  · split
    next keyword => exact fun _ => Token.ofCode?_eq_some_iff.mp keyword
    next keyword => exact fun _ => Token.ofCode?_eq_some_iff.mp keyword
    next keyword => exact fun _ => Token.ofCode?_eq_some_iff.mp keyword
    next keyword => exact fun _ => Token.ofCode?_eq_some_iff.mp keyword
    next keyword => exact fun _ => Token.ofCode?_eq_some_iff.mp keyword
    next keyword => exact fun _ => Token.ofCode?_eq_some_iff.mp keyword
    next => exact fun present => absurd rfl present

/-- Numbers go with numbers under every operator, and texts with texts under three of them. -/
def Joins (operator : Operator) (left right : Bool) : Prop :=
  left = right ∧ (left = true → operator = equal ∨ operator = less ∨ operator = greater)

end Operator

namespace Grammar

/-! ## Signs -/

/-- What may stand in front of an operand. -/
inductive Sign
  | minus
  | not
  deriving DecidableEq, Repr

namespace Sign

/-- The code of a sign. -/
def code : Sign → Code
  | minus => Code.minus
  | not => Keyword.not.code

/-- How tightly a sign binds what follows it. -/
def priority : Sign → Nat
  | minus => 9
  | not => 4

end Sign

/-! ## Names -/

/-- The name of a variable: a letter and then letters, digits and dots, and no function's name. -/
structure IsName (name : Name) : Prop where
  letter : (name.headD Code.newline).isLetter = true
  codes : ∀ code ∈ name, code.isNameCode = true
  short : name.length ≤ maxNameLength
  free : Function.isReserved name = false

/-! ## Operands -/

/-- An operand that holds no other expression. -/
inductive Atom
  | number (digits : List Code)
  | text (codes : List Code)
  | variable (name : Name)
  | textVariable (name : Name)
  /-- A function that takes no argument. -/
  | reading (function : Function)
  deriving DecidableEq, Repr

namespace Atom

/-- The codes of an operand. -/
def codes : Atom → List Code
  | number digits => digits
  | text codes => Code.quote :: (codes ++ [Code.quote])
  | «variable» name => name
  | textVariable name => name ++ [Code.dollar]
  | reading function => function.name

/-- The operand is a text. -/
def isText : Atom → Bool
  | number _ | «variable» _ => false
  | text _ | textVariable _ => true
  | reading function => function.returnsText

/-- The operand is one of the language. -/
def Valid (size : WordSize) : Atom → Prop
  | number digits =>
      digits ≠ [] ∧ (∀ digit ∈ digits, digit.isDigit = true) ∧ size.Fits (Decimal.valueOf digits)
  | text codes => Code.quote ∉ codes
  | «variable» name | textVariable name => IsName name
  | reading function => function.takesArgument = false

end Atom

/-- What an expression in brackets may follow. -/
inductive Opening
  | bracket
  | element (name : Name)
  | call (function : Function)
  deriving DecidableEq, Repr

namespace Opening

/-- The codes up to the bracket that opens. -/
def codes : Opening → List Code
  | bracket => [Code.leftParen]
  | element name => name ++ [Code.leftParen]
  | call function =>
      function.name ++
        (if function.use = .textFunction then [Code.dollar, Code.leftParen]
          else [Code.leftParen])

/-- It is an opening of the language. -/
def Valid : Opening → Prop
  | bracket => True
  | element name => IsName name
  | call function => function.takesArgument = true

/-- What stands in the brackets is of the right type. -/
def Takes : Opening → (isText : Bool) → Prop
  | bracket, _ => True
  | element _, isText => isText = false
  | call function, isText => isText = function.takesText

/-- The whole is a text, with such an expression in the brackets. -/
def returnsText : Opening → (isText : Bool) → Bool
  | bracket, isText => isText
  | element _, _ => false
  | call function, _ => function.returnsText

end Opening

/-! ## Trees -/

/-- An expression, grouped. -/
inductive Expr
  | atom (operand : Atom)
  | enclosed (opening : Opening) (inner : Expr)
  | signed (sign : Sign) (operand : Expr)
  | binary (left : Expr) (operator : Operator) (right : Expr)
  deriving DecidableEq, Repr

namespace Expr

/-- The codes of an expression. -/
def codes : Expr → List Code
  | atom operand => operand.codes
  | enclosed opening inner => opening.codes ++ (inner.codes ++ [Code.rightParen])
  | signed sign operand => sign.code :: operand.codes
  | binary left operator right => left.codes ++ operator.code :: right.codes

/-- The expression is a text. -/
def isText : Expr → Bool
  | atom operand => operand.isText
  | enclosed opening inner => opening.returnsText inner.isText
  | signed _ _ | binary _ _ _ => false

/-- What an expression opens with binds tighter than a priority. -/
def Tight (priority : Nat) : Expr → Prop
  | atom _ | enclosed _ _ | signed _ _ => True
  | binary left operator _ => priority < operator.priority ∧ left.Tight priority

/-- All that an expression ends with is closed by an operator of a priority. -/
def Yields (priority : Nat) : Expr → Prop
  | atom _ | enclosed _ _ => True
  | signed sign operand => priority ≤ sign.priority ∧ operand.Yields priority
  | binary _ operator right => priority ≤ operator.priority ∧ right.Yields priority

/-- The expression is grouped as the priorities group it, and its parts are of the right types. -/
inductive WellFormed (size : WordSize) : Expr → Prop
  | atom {operand : Atom} : operand.Valid size → WellFormed size (.atom operand)
  | enclosed {opening : Opening} {inner : Expr} :
      opening.Valid → opening.Takes inner.isText → inner.WellFormed size →
      WellFormed size (.enclosed opening inner)
  | signed {sign : Sign} {operand : Expr} :
      operand.isText = false → operand.Tight sign.priority → operand.WellFormed size →
      WellFormed size (.signed sign operand)
  | binary {left right : Expr} {operator : Operator} :
      operator ≠ .absent → operator.Joins left.isText right.isText →
      left.Yields operator.priority → right.Tight operator.priority →
      left.WellFormed size → right.WellFormed size →
      WellFormed size (.binary left operator right)

/-- How many brackets are open at once, at most. -/
def height : Expr → Nat
  | .atom _ => 0
  | .enclosed _ inner => inner.height + 1
  | .signed _ operand => operand.height
  | .binary left _ right => max left.height right.height

/-- How many brackets, signs and operators wait at once, at most. -/
def pending : Expr → Nat
  | .atom _ => 0
  | .enclosed _ inner => inner.pending + 1
  | .signed _ operand => operand.pending + 1
  | .binary left _ right => max left.pending (right.pending + 1)

/-- A well-formed expression that there are levels and room enough for. -/
structure Fits (size : WordSize) (levels room : Nat) (expr : Expr) : Prop where
  wellFormed : expr.WellFormed size
  height : expr.height < levels
  pending : expr.pending < room

end Expr
end Grammar
end HomeBasic
