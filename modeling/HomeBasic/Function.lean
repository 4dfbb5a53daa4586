import HomeBasic.Code

/-!
# Built-in functions

What follows a name decides what it refers to, and so which built-in function it
calls, if any. The names of the functions are reserved whatever follows them.
-/

namespace HomeBasic

/-- What a name refers to, as the codes behind it tell. -/
inductive NameUse
  /-- `A` -/
  | number
  /-- `A$(` -/
  | textFunction
  /-- `A(` -/
  | array
  /-- `A$` -/
  | text
  deriving DecidableEq, Repr, Inhabited

/-- The built-in functions. -/
inductive Function
  | abs
  | sgn
  | rnd
  | peek
  | len
  | code
  | val
  | chr
  | str
  | time
  deriving DecidableEq, Repr, Inhabited

namespace Function

/-- Every function. -/
def all : List Function :=
  [abs, sgn, rnd, peek, len, code, val, chr, str, time]

/-- The letters of a function's name. -/
def letters : Function → List Char
  | abs => ['A', 'B', 'S']
  | sgn => ['S', 'G', 'N']
  | rnd => ['R', 'N', 'D']
  | peek => ['P', 'E', 'E', 'K']
  | len => ['L', 'E', 'N']
  | code => ['C', 'O', 'D', 'E']
  | val => ['V', 'A', 'L']
  | chr => ['C', 'H', 'R']
  | str => ['S', 'T', 'R']
  | time => ['T', 'I', 'M', 'E']

/-- The codes of a function's name. -/
def name (function : Function) : Name :=
  function.letters.filterMap Code.ofChar?

/-- How a function's name has to be used to call it. -/
def use : Function → NameUse
  | chr | str => .textFunction
  | time => .number
  | _ => .array

/-- The function is called with an argument in brackets. -/
def takesArgument : Function → Bool
  | time => false
  | _ => true

/-- The argument is a text. -/
def takesText : Function → Bool
  | len | code | val => true
  | _ => false

/-- The result is a text. -/
def returnsText : Function → Bool
  | chr | str => true
  | _ => false

/-- The function that a name calls. -/
def ofName? (name : Name) (use : NameUse) : Option Function :=
  all.find? fun function => function.name == name && function.use == use

/-- The name is that of a function, and no variable can have it. -/
def isReserved (name : Name) : Bool :=
  all.any fun function => function.name == name

/-- A function is called by its name in its own use. -/
theorem ofName?_name (function : Function) :
    ofName? function.name function.use = some function := by
  cases function <;> decide

/-- Only a reserved name calls a function. -/
theorem isReserved_of_ofName? {name : Name} {use : NameUse} {function : Function}
    (found : ofName? name use = some function) : isReserved name = true := by
  have matched := List.find?_some found
  have member := List.mem_of_find?_eq_some found
  simp only [isReserved, List.any_eq_true]
  exact ⟨function, member, by simp_all⟩

end Function
end HomeBasic
