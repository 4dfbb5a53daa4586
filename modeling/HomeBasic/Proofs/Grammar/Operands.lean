import HomeBasic.Proofs.Grammar.Atoms
import HomeBasic.Proofs.Line.Checking

/-!
# Operands

An operand is recognized where the expressions inside of its brackets are. What a name refers
to is told by its use: a variable, an element of an array or a call of a function.

Main statement: `recognizes_operand`.
-/

namespace HomeBasic
namespace Grammar

open Expression (argument callFunction fetched operand reference reply subscript
  subscriptOf)

/-- An operand with an expression in its brackets, if it has any, of which a property holds. -/
inductive Expr.Primary (size : WordSize) (holds : Expr → Prop) : Expr → Prop
  | atom {operand : Atom} : operand.Valid size → Primary size holds (.atom operand)
  | enclosed {opening : Opening} {inner : Expr} :
      opening.Valid → opening.Takes inner.isText → holds inner →
      Primary size holds (.enclosed opening inner)

/-- The line opens with an expression of a type. -/
def Spells (holds : Expr → Prop) (line : List Code) (isText : Bool) (rest : List Code) : Prop :=
  ∃ expr, holds expr ∧ expr.isText = isText ∧ line = expr.codes ++ rest

/-- The line opens with an expression of a type in brackets. -/
def Brackets (holds : Expr → Prop) (line : List Code) (isText : Bool) (rest : List Code) : Prop :=
  ∃ inner, holds inner ∧ inner.isText = isText ∧
    line = Code.leftParen :: (inner.codes ++ Code.rightParen :: rest)

theorem ends_rightParen (rest : List Code) : Ends (Code.rightParen :: rest) :=
  ends_of_head (by simp)

/-! ## Functions and their names -/

theorem letter_name (function : Function) :
    (function.name.headD Code.newline).isLetter = true := by
  cases function <;> decide

theorem isNameCode_name (function : Function) :
    ∀ code ∈ function.name, code.isNameCode = true :=
  List.all_eq_true.mp (by cases function <;> decide)

theorem length_name_le (function : Function) : function.name.length ≤ maxNameLength := by
  cases function <;> decide

theorem eq_of_ofName? {name : Name} {use : NameUse} {function : Function}
    (found : Function.ofName? name use = some function) :
    name = function.name ∧ use = function.use := by
  have same := List.find?_some found
  simp only [Bool.and_eq_true, beq_iff_eq] at same
  exact ⟨same.1.symm, same.2.symm⟩

/-- What follows the name of a function up to the bracket, or up to what follows the call. -/
theorem use_eq (function : Function) :
    function.takesArgument = true ∧ (function.use = .array ∨ function.use = .textFunction) ∨
      function.takesArgument = false ∧ function.use = .number := by
  cases function <;> decide

theorem isText_placeholder (function : Function) :
    function.placeholder.isText = function.returnsText := by
  cases function <;> rfl

/-! ## What an operand starts with -/

/-- An operand may start with the code. -/
def Starts (code : Code) : Prop :=
  code.isDigit = true ∨ code.isLetter = true ∨ code = Code.quote ∨ code = Code.leftParen

instance (code : Code) : Decidable (Starts code) :=
  inferInstanceAs (Decidable (_ ∨ _))

theorem Starts.noSign {code : Code} (starts : Starts code) : Pending.ofCode? code = none := by
  rw [Pending.ofCode?, if_neg, if_neg]
  · rintro rfl
    revert starts
    decide
  · rintro rfl
    revert starts
    decide

theorem exists_cons_starts {line : List Code}
    (letter : (line.headD Code.newline).isLetter = true) :
    ∃ code others, line = code :: others ∧ Starts code := by
  obtain ⟨code, others, opens, letter⟩ := exists_cons_of_isLetter letter
  exact ⟨code, others, opens, .inr (.inl letter)⟩

theorem exists_cons_of_primary {size : WordSize} {holds : Expr → Prop} {expr : Expr}
    (primary : expr.Primary size holds) :
    ∃ code others, expr.codes = code :: others ∧ Starts code := by
  cases primary with
  | @atom operand valid =>
      cases operand with
      | number digits =>
          obtain ⟨some, all, -⟩ := valid
          cases digits with
          | nil => exact absurd rfl some
          | cons digit digits => exact ⟨digit, digits, rfl, .inl (all digit (by simp))⟩
      | text codes => exact ⟨_, _, rfl, .inr (.inr (.inl rfl))⟩
      | «variable» name => exact exists_cons_starts valid.letter
      | textVariable name => exact exists_cons_starts (isLetter_headD_append valid.letter _)
      | reading function => exact exists_cons_starts (letter_name function)
  | @enclosed opening inner valid takes fits =>
      rw [Expr.codes]
      cases opening with
      | bracket => exact ⟨_, _, rfl, .inr (.inr (.inr rfl))⟩
      | element name =>
          rw [Opening.codes, List.append_assoc]
          exact exists_cons_starts (isLetter_headD_append valid.letter _)
      | call function =>
          rw [Opening.codes, List.append_assoc]
          exact exists_cons_starts (isLetter_headD_append (letter_name function) _)

/-! ## Uses -/

theorem exists_of_text {after : List Code} (use : NameUse.ofAfter after = .text) :
    ∃ rest, after = Code.dollar :: rest := by
  cases after with
  | nil => cases use
  | cons first rest =>
      rw [NameUse.ofAfter] at use
      split_ifs at use with dollar
      exact ⟨rest, by rw [dollar]⟩

theorem exists_of_textFunction {after : List Code} (use : NameUse.ofAfter after = .textFunction) :
    ∃ rest, after = Code.dollar :: Code.leftParen :: rest := by
  cases after with
  | nil => cases use
  | cons first rest =>
      rw [NameUse.ofAfter] at use
      split_ifs at use with dollar bracket
      cases rest with
      | nil => exact absurd bracket (by decide)
      | cons second rest =>
          obtain rfl : second = Code.leftParen := bracket
          exact ⟨rest, by rw [dollar]⟩

theorem Stops.number {rest : List Code} (stops : Stops rest) : NameUse.ofAfter rest = .number := by
  cases rest with
  | nil => rfl
  | cons code rest =>
      have noDollar : code ≠ Code.dollar := stops.noDollar
      have noBracket : code ≠ Code.leftParen := stops.noBracket
      rw [NameUse.ofAfter, if_neg noDollar, if_neg noBracket]

theorem Stops.text {rest : List Code} (stops : Stops rest) :
    NameUse.ofAfter (Code.dollar :: rest) = .text := by
  rw [NameUse.ofAfter, if_pos rfl, if_neg stops.noBracket]

section
variable {H : Type} [Console H] {environment : Environment} {nested : Attempt (Desk H) Value}
  {calculator : BoundedStack Pending} {desk reached : Desk H} {holds : Expr → Prop}
  {name : Name} {after rest : List Code} {value : Value} {seen : Bool}

/-! ## Brackets -/

section
variable (recognizes : Recognizes calculator Ends nested Value.isText (Spells holds))
include recognizes

omit [Console H] in
theorem recognizes_number :
    Recognizes calculator Ends (Expression.number nested) (fun _ => ())
      fun line _ rest => Spells holds line false rest := by
  have pick : ∀ value : Value, Recognizes calculator Ends
      (Expression.number (pure value) : Attempt (Desk H) Int) (fun _ => ())
      fun line _ rest => value.isText = false ∧ rest = line := by
    intro value
    cases value with
    | number value => exact (Recognizes.pure value _).of_iff fun _ _ _ => by simp
    | text codes => exact (Recognizes.throw _ _).of_iff fun _ _ _ => by simp
  refine (recognizes.bind (fun isText line _ rest => isText = false ∧ rest = line) pick
    ?_).of_iff ?_
  · rintro _ middle _ rest ⟨_, rfl⟩ ends
    exact ends
  · simp

omit [Console H] in
/-- An expression and the bracket that closes. -/
theorem recognizes_closing :
    Recognizes calculator Anything
      (do
        let value ← nested
        Desk.expect Code.rightParen
        return value : Attempt (Desk H) Value) Value.isText
      fun line isText rest => ∃ inner, holds inner ∧ inner.isText = isText ∧
        line = inner.codes ++ Code.rightParen :: rest := by
  refine (recognizes.bind (fun isText line seen rest => ∃ middle,
    line = Code.rightParen :: middle ∧ seen = isText ∧ rest = middle) (fun value =>
      (Recognizes.pure value Value.isText).afterCode _ (by decide) (by decide)) ?_).of_iff ?_
  · rintro _ _ _ _ ⟨rest, rfl, _⟩ _
    exact ends_rightParen rest
  · simp [Spells]

omit [Console H] in
theorem recognizes_subscript :
    Recognizes calculator Anything (subscript nested) (fun _ => ())
      fun line _ rest => Brackets holds line false rest := by
  have closing : ∀ index : Int, Recognizes calculator Anything
      (do Desk.expect Code.rightParen; return index : Attempt (Desk H) Int) (fun _ => ())
      fun line _ rest => line = Code.rightParen :: rest := fun index =>
    ((Recognizes.pure index fun _ => ()).afterCode _ (by decide) (by decide)).of_iff fun _ _ _ => by
      simp
  have inner := (recognizes_number recognizes).andThen closing (by
    rintro _ _ rest rfl _
    exact ends_rightParen rest)
  refine (inner.afterCode _ (by decide) (by decide)).of_iff fun line seen rest => ?_
  simp [Spells, Brackets]
  aesop

omit [Console H] in
theorem recognizes_argument {function : Function} (takes : function.takesArgument = true) :
    Recognizes calculator Anything (argument nested function) Value.isText
      fun line seen rest => seen = function.takesText ∧
        Brackets holds line function.takesText rest := by
  have check : ∀ value : Value, Recognizes calculator Anything
      (if value.isText = function.takesText then return value
        else throw .syntaxError : Attempt (Desk H) Value) Value.isText
      fun line seen rest => value.isText = function.takesText ∧ seen = function.takesText ∧
        rest = line := by
    intro value
    by_cases same : value.isText = function.takesText
    · rw [if_pos same]
      exact (Recognizes.pure value _).of_iff fun _ _ _ => by simp [same]
    · rw [if_neg same]
      exact (Recognizes.throw _ _).of_iff fun _ _ _ => by simp [same]
  have closing := fun value : Value =>
    (check value).afterCode Code.rightParen (by decide) (by decide)
  have inner := recognizes.bind (fun isText line seen rest => ∃ middle,
    line = Code.rightParen :: middle ∧ isText = function.takesText ∧
      seen = function.takesText ∧ rest = middle) closing (by
    rintro _ _ _ _ ⟨rest, rfl, _⟩ _
    exact ends_rightParen rest)
  rw [argument, if_pos takes]
  refine (inner.afterCode _ (by decide) (by decide)).of_iff fun line seen rest => ?_
  simp [Spells, Brackets]
  aesop

variable (environment) in
/-- A call takes its argument off the line, if the function has one. -/
theorem recognizes_callFunction (function : Function) :
    Recognizes calculator Anything (callFunction environment .check nested function) Value.isText
      fun line seen rest => seen = function.returnsText ∧
        if function.takesArgument = true then Brackets holds line function.takesText rest
        else rest = line := by
  rw [Expression.callFunction_eq]
  have replies : ∀ value : Value, Recognizes calculator Anything
      (Desk.consulting (reply environment .check function value) : Attempt (Desk H) Value)
      Value.isText fun line seen rest => seen = function.returnsText ∧ rest = line := by
    intro value
    refine (Recognizes.pure function.placeholder Value.isText).of_iff fun _ _ _ => ?_
    rw [isText_placeholder]
  cases takes : function.takesArgument with
  | true =>
      refine ((recognizes_argument recognizes takes).andThen replies
        fun _ _ _ _ _ => trivial).of_iff fun line seen rest => ?_
      simp
      aesop
  | false =>
      have none : argument nested function = pure (.number 0) := by
        rw [argument, if_neg (by rw [takes]; decide)]
      rw [none]
      exact replies (.number 0)

/-! ## Names and what they refer to -/

/-- What is behind a name is read as its use tells. -/
def trail (environment : Environment) (nested : Attempt (Desk H) Value) (name : Name)
    (use : NameUse) : Attempt (Desk H) Value :=
  match Function.ofName? name use with
  | some function => do
      if use = .textFunction then
        Desk.skip 1
      callFunction environment .check nested function
  | none => do
      let index ← subscriptOf nested use
      let value ← Attempt.ofExcept (fetched environment name index .check use)
      let _ ← Desk.look
      return value

omit recognizes in
theorem reference_apply (heads : Heads name after desk.scanner.line) :
    reference environment .check nested desk =
      if maxNameLength < name.length then (.error .syntaxError, desk)
      else if Function.ofName? name (NameUse.ofAfter after) = none ∧
          Function.isReserved name = true then
        (.error .syntaxError, desk)
      else
        trail environment nested name (NameUse.ofAfter after)
          { desk with scanner := desk.scanner.skip name.length } := by
  rw [Expression.reference_eq, Attempt.bind_apply, heads.readName]
  by_cases long : maxNameLength < name.length
  · rw [if_pos long, if_pos long]
  · rw [if_neg long, if_neg long, trail]
    dsimp only
    cases found : Function.ofName? name (NameUse.ofAfter after) with
    | some function =>
        simp only [reduceCtorEq, false_and, if_false]
        rfl
    | none =>
        simp only [true_and]
        cases Function.isReserved name <;> rfl

omit recognizes in
theorem ofName?_of_free (free : Function.isReserved name = false) (use : NameUse) :
    Function.ofName? name use = none := by
  cases found : Function.ofName? name use with
  | none => rfl
  | some function =>
      rw [Function.isReserved_of_ofName? found] at free
      cases free

omit recognizes in
theorem trail_function (function : Function) :
    trail environment nested function.name function.use = (do
      if function.use = .textFunction then
        Desk.skip 1
      callFunction environment .check nested function) := by
  rw [trail, Function.ofName?_name]

omit recognizes in
theorem trail_free (free : Function.isReserved name = false) (use : NameUse) :
    trail environment nested name use = (do
      let index ← subscriptOf nested use
      let value ← Attempt.ofExcept (fetched environment name index .check use)
      let _ ← Desk.look
      return value) := by
  rw [trail, ofName?_of_free free]

/-- The name of a function and what is behind it are a call. -/
theorem sound_function {function : Function} (ready : Ready calculator desk)
    (use : NameUse.ofAfter desk.scanner.line = function.use)
    (run : trail environment nested function.name function.use desk = (.ok value, reached)) :
    Ready calculator reached ∧
      ∃ expr, Expr.Primary environment.config.word holds expr ∧ expr.isText = value.isText ∧
        function.name ++ desk.scanner.line = expr.codes ++ reached.scanner.line := by
  have calls := recognizes_callFunction environment recognizes function
  rw [trail_function] at run
  rcases use_eq function with ⟨takes, array | textFunction⟩ | ⟨none, number⟩
  · rw [if_neg (by rw [array]; decide)] at run
    obtain ⟨ends, seen, found⟩ := calls.sound ready run
    rw [if_pos takes] at found
    obtain ⟨inner, fits, type, line⟩ := found
    refine ⟨ends, .enclosed (.call function) inner, .enclosed takes type fits, seen.symm, ?_⟩
    rw [line]
    simp [Expr.codes, Opening.codes, array]
  · rw [if_pos textFunction, Attempt.bind_apply, Desk.skip_apply] at run
    rw [textFunction] at use
    obtain ⟨rest, opens⟩ := exists_of_textFunction use
    obtain ⟨before, passed⟩ := ready.skipDollar opens
    obtain ⟨ends, seen, found⟩ := calls.sound before run
    rw [if_pos takes] at found
    obtain ⟨inner, fits, type, line⟩ := found
    refine ⟨ends, .enclosed (.call function) inner, .enclosed takes type fits, seen.symm, ?_⟩
    rw [opens, ← passed, line]
    simp [Expr.codes, Opening.codes, textFunction]
  · rw [if_neg (by rw [number]; decide)] at run
    obtain ⟨ends, seen, found⟩ := calls.sound ready run
    rw [if_neg (by rw [none]; decide)] at found
    exact ⟨ends, .atom (.reading function), .atom none, seen.symm, by rw [found]; rfl⟩

/-- The name of a variable and what is behind it are the variable or an element. -/
theorem sound_variable (named : IsName name) (ready : Ready calculator desk)
    (run : trail environment nested name (NameUse.ofAfter desk.scanner.line) desk =
      (.ok value, reached)) :
    Ready calculator reached ∧
      ∃ expr, Expr.Primary environment.config.word holds expr ∧ expr.isText = value.isText ∧
        name ++ desk.scanner.line = expr.codes ++ reached.scanner.line := by
  rw [trail_free named.free] at run
  cases use : NameUse.ofAfter desk.scanner.line with
  | number =>
      rw [use] at run
      obtain ⟨ends, seen, line⟩ := (recognizes_found (Value.number 0) Value.isText).sound ready run
      exact ⟨ends, .atom (.variable name), .atom named, seen.symm, by rw [line]; rfl⟩
  | text =>
      rw [use, subscriptOf] at run
      obtain ⟨rest, opens⟩ := exists_of_text use
      obtain ⟨before, passed⟩ := ready.skipDollar opens
      obtain ⟨ends, seen, line⟩ := (recognizes_found (Value.text []) Value.isText).sound before run
      refine ⟨ends, .atom (.textVariable name), .atom named, seen.symm, ?_⟩
      rw [line, passed, opens, Expr.codes, Atom.codes, List.append_assoc, List.singleton_append]
  | array =>
      rw [use, subscriptOf] at run
      have reads := (recognizes_subscript recognizes).andThen
        (fun _ => recognizes_found (Value.number 0) Value.isText) fun _ _ _ _ _ => trivial
      obtain ⟨ends, _, middle, ⟨inner, fits, type, line⟩, seen, rfl⟩ := reads.sound ready run
      refine ⟨ends, .enclosed (.element name) inner, .enclosed named type fits, seen.symm, ?_⟩
      rw [line]
      simp [Expr.codes, Opening.codes]
  | textFunction =>
      rw [use] at run
      cases run

/-- What a name with what is behind it is read as is an operand. -/
theorem sound_reference (ready : Ready calculator desk)
    (letter : (desk.scanner.line.headD Code.newline).isLetter = true)
    (run : reference environment .check nested desk = (.ok value, reached)) :
    Ready calculator reached ∧
      Spells (Expr.Primary environment.config.word holds) desk.scanner.line value.isText
        reached.scanner.line := by
  obtain ⟨name, after, heads⟩ := exists_heads letter
  rw [reference_apply heads] at run
  by_cases long : maxNameLength < name.length
  · rw [if_pos long] at run
    cases run
  rw [if_neg long] at run
  obtain ⟨before, line⟩ := ready.skipName heads
  rw [Spells, heads.line, ← line]
  cases found : Function.ofName? name (NameUse.ofAfter after) with
  | some function =>
      rw [if_neg fun both => Option.some_ne_none _ (found.symm.trans both.1)] at run
      obtain ⟨rfl, use⟩ := eq_of_ofName? found
      rw [use] at run
      exact sound_function recognizes before (by rw [line, use]) run
  | none =>
      cases reserved : Function.isReserved name with
      | true =>
          rw [if_pos ⟨found, reserved⟩] at run
          cases run
      | false =>
          rw [if_neg fun both => Bool.false_ne_true (reserved.symm.trans both.2)] at run
          rw [← line] at run
          have named : IsName name :=
            ⟨heads.letter, heads.codes, Nat.le_of_not_lt long, reserved⟩
          exact sound_variable recognizes named before run

omit recognizes in
theorem IsName.heads (named : IsName name) (stops : (after.headD Code.newline).isNameCode = false) :
    Heads name after (name ++ after) :=
  ⟨rfl, named.letter, named.codes, stops⟩

omit recognizes in
theorem IsName.plain (named : IsName name) : ∀ code ∈ name, code.Plain :=
  fun code member => plain_of_isNameCode (named.codes code member)

omit recognizes in
theorem plain_name (function : Function) : ∀ code ∈ function.name, code.Plain :=
  fun code member => plain_of_isNameCode (isNameCode_name function code member)

omit recognizes in
theorem reference_of_name (named : IsName name) (line : desk.scanner.line = name ++ after)
    (stops : (after.headD Code.newline).isNameCode = false) :
    reference environment .check nested desk =
      trail environment nested name (NameUse.ofAfter after)
        { desk with scanner := desk.scanner.skip name.length } := by
  have heads : Heads name after desk.scanner.line := by
    rw [line]
    exact named.heads stops
  rw [reference_apply heads, if_neg (Nat.not_lt.mpr named.short),
    if_neg fun both => Bool.false_ne_true (named.free.symm.trans both.2)]

omit recognizes in
theorem reference_of_function {function : Function}
    (line : desk.scanner.line = function.name ++ after)
    (use : NameUse.ofAfter after = function.use)
    (stops : (after.headD Code.newline).isNameCode = false) :
    reference environment .check nested desk =
      trail environment nested function.name function.use
        { desk with scanner := desk.scanner.skip function.name.length } := by
  have heads : Heads function.name after desk.scanner.line :=
    ⟨line, letter_name function, isNameCode_name function, stops⟩
  rw [reference_apply heads, if_neg (Nat.not_lt.mpr (length_name_le function)), use,
    Function.ofName?_name, if_neg fun both => Option.some_ne_none _ both.1]

/-- The step ends well with a value of the type, and leaves the rest of the line. -/
def Leaves (step : Attempt (Desk H) Value) (desk : Desk H) (isText : Bool)
    (rest : List Code) : Prop :=
  ∃ value reached, step desk = (.ok value, reached) ∧ value.isText = isText ∧
    reached.scanner.line = rest

omit recognizes in
theorem complete_variable (named : IsName name) (ready : Ready calculator desk)
    (line : desk.scanner.line = name ++ rest) (stops : Stops rest) :
    Leaves (reference environment .check nested) desk false rest := by
  obtain ⟨before, passed⟩ := ready.skip line named.plain
  rw [Leaves, reference_of_name named line stops.noName, stops.number, trail_free named.free]
  exact (recognizes_found (Value.number 0) Value.isText).complete before ⟨rfl, passed.symm⟩ trivial

omit recognizes in
theorem complete_textVariable (named : IsName name) (ready : Ready calculator desk)
    (line : desk.scanner.line = name ++ Code.dollar :: rest) (stops : Stops rest) :
    Leaves (reference environment .check nested) desk true rest := by
  obtain ⟨before, passed⟩ := ready.skip line named.plain
  obtain ⟨behind, left⟩ := before.skipDollar passed
  rw [Leaves, reference_of_name named line rfl, stops.text, trail_free named.free]
  exact (recognizes_found (Value.text []) Value.isText).complete behind ⟨rfl, left.symm⟩ trivial

omit recognizes in
theorem complete_reading {function : Function} (none : function.takesArgument = false)
    (recognizes : Recognizes calculator Ends nested Value.isText (Spells holds))
    (ready : Ready calculator desk) (line : desk.scanner.line = function.name ++ rest)
    (stops : Stops rest) :
    Leaves (reference environment .check nested) desk function.returnsText rest := by
  have number : function.use = .number := by
    rcases use_eq function with ⟨takes, -⟩ | ⟨-, number⟩
    · rw [none] at takes
      cases takes
    · exact number
  obtain ⟨before, passed⟩ := ready.skip line (plain_name function)
  rw [Leaves, reference_of_function line (stops.number.trans number.symm) stops.noName,
    trail_function, if_neg (by rw [number]; decide)]
  refine (recognizes_callFunction environment recognizes function).complete before ⟨rfl, ?_⟩ trivial
  rw [if_neg (by rw [none]; decide)]
  exact passed.symm

theorem complete_element {inner : Expr} (named : IsName name) (fits : holds inner)
    (type : inner.isText = false) (ready : Ready calculator desk)
    (line : desk.scanner.line =
      name ++ Code.leftParen :: (inner.codes ++ Code.rightParen :: rest)) :
    Leaves (reference environment .check nested) desk false rest := by
  obtain ⟨before, passed⟩ := ready.skip line named.plain
  have reads := (recognizes_subscript recognizes).andThen
    (fun _ => recognizes_found (Value.number 0) Value.isText) fun _ _ _ _ _ => trivial
  rw [Leaves, reference_of_name named line rfl, trail_free named.free]
  exact reads.complete before ⟨(), rest, ⟨inner, fits, type, passed⟩, rfl, rfl⟩ trivial

theorem complete_call {function : Function} {inner : Expr} (takes : function.takesArgument = true)
    (fits : holds inner) (type : inner.isText = function.takesText) (ready : Ready calculator desk)
    (line : desk.scanner.line =
      (Opening.call function).codes ++ (inner.codes ++ Code.rightParen :: rest)) :
    Leaves (reference environment .check nested) desk function.returnsText rest := by
  have calls := recognizes_callFunction environment recognizes function
  have brackets : ∀ {line}, line = Code.leftParen :: (inner.codes ++ Code.rightParen :: rest) →
      function.returnsText = function.returnsText ∧
        if function.takesArgument = true then Brackets holds line function.takesText rest
        else rest = line := by
    rintro line rfl
    rw [if_pos takes]
    exact ⟨rfl, inner, fits, type, rfl⟩
  rcases use_eq function with ⟨-, array | textFunction⟩ | ⟨none, -⟩
  · have opens : desk.scanner.line =
        function.name ++ Code.leftParen :: (inner.codes ++ Code.rightParen :: rest) := by
      rw [line, Opening.codes, array]
      simp
    obtain ⟨before, passed⟩ := ready.skip opens (plain_name function)
    rw [Leaves, reference_of_function opens array.symm rfl, trail_function,
      if_neg (by rw [array]; decide)]
    exact calls.complete before (brackets passed) trivial
  · have opens : desk.scanner.line = function.name ++
        Code.dollar :: Code.leftParen :: (inner.codes ++ Code.rightParen :: rest) := by
      rw [line, Opening.codes, if_pos textFunction]
      simp
    obtain ⟨before, passed⟩ := ready.skip opens (plain_name function)
    obtain ⟨behind, left⟩ := before.skipDollar passed
    rw [Leaves, reference_of_function opens textFunction.symm rfl, trail_function,
      if_pos textFunction]
    exact calls.complete behind (brackets left) trivial
  · rw [takes] at none
    cases none

/-! ## Operands -/

/-- Reads the operand at the scanner. -/
def operandHere (environment : Environment) (nested : Attempt (Desk H) Value) :
    Attempt (Desk H) Value := do
  operand environment .check nested (← get).scanner.current

omit recognizes in
theorem operandHere_of_line {code : Code} {others : List Code}
    (opens : desk.scanner.line = code :: others) :
    operandHere environment nested desk = operand environment .check nested code desk := by
  change operand environment .check nested desk.scanner.current desk = _
  rw [Scanner.current_eq_headD, opens, List.headD_cons]

omit recognizes in
/-- An operand that opens with a letter is what a name refers to. -/
theorem operandHere_of_isLetter (letter : (desk.scanner.line.headD Code.newline).isLetter = true) :
    operandHere environment nested desk = reference environment .check nested desk := by
  change operand environment .check nested desk.scanner.current desk = _
  rw [Scanner.current_eq_headD]
  generalize desk.scanner.line.headD Code.newline = code at letter ⊢
  have noDigit : ¬code.isDigit = true := fun digit => by
    rw [Code.isLetter_of_isDigit digit] at letter
    cases letter
  have noQuote : code ≠ Code.quote := by
    rintro rfl
    cases letter
  have noBracket : code ≠ Code.leftParen := by
    rintro rfl
    cases letter
  rw [operand, if_neg noDigit, if_neg noQuote, if_neg noBracket, if_pos letter]

omit [Console H] recognizes in
theorem sound_number (ready : Ready calculator desk)
    (digit : (desk.scanner.line.headD Code.newline).isDigit = true)
    (run : (do return .number (← Desk.scanning (Scanner.readNumber environment.config.word)) :
      Attempt (Desk H) Value) desk = (.ok value, reached)) :
    Ready calculator reached ∧
      Spells (Expr.Primary environment.config.word holds) desk.scanner.line value.isText
        reached.scanner.line := by
  obtain ⟨number, between, read, ends⟩ := Attempt.exists_of_bind_eq_ok run
  cases ends
  obtain ⟨ends, digits, all, fits, line, stops⟩ :=
    (recognizes_readNumber environment.config.word).sound ready read
  have some : digits ≠ [] := by
    rintro rfl
    rw [line, List.nil_append, stops] at digit
    cases digit
  exact ⟨ends, .atom (.number digits), .atom ⟨some, all, fits⟩, rfl, line⟩

omit [Console H] recognizes in
theorem sound_text (ready : Ready calculator desk)
    (quoted : desk.scanner.line.headD Code.newline = Code.quote)
    (run : (do return .text (← Desk.scanning Scanner.readText) : Attempt (Desk H) Value) desk =
      (.ok value, reached)) :
    Ready calculator reached ∧
      Spells (Expr.Primary environment.config.word holds) desk.scanner.line value.isText
        reached.scanner.line := by
  obtain ⟨text, between, read, ends⟩ := Attempt.exists_of_bind_eq_ok run
  cases ends
  obtain ⟨body, opens⟩ := exists_cons_of_headD quoted (by decide)
  obtain ⟨text, after, rfl, inside⟩ := Ready.exists_of_readText opens read
  obtain ⟨later, reads, ends, line⟩ := ready.readText opens inside
  cases read.symm.trans reads
  refine ⟨ends, .atom (.text text), .atom inside, rfl, ?_⟩
  rw [line, opens]
  simp [Expr.codes, Atom.codes]

omit [Console H] in
theorem sound_bracket (ready : Ready calculator desk)
    (bracket : desk.scanner.line.headD Code.newline = Code.leftParen)
    (run : (do
      Desk.advance
      let value ← nested
      Desk.expect Code.rightParen
      return value : Attempt (Desk H) Value) desk = (.ok value, reached)) :
    Ready calculator reached ∧
      Spells (Expr.Primary environment.config.word holds) desk.scanner.line value.isText
        reached.scanner.line := by
  rw [Attempt.bind_apply, Desk.advance_apply] at run
  obtain ⟨body, opens⟩ := exists_cons_of_headD bracket (by decide)
  obtain ⟨before, passed⟩ := ready.advance opens (by decide)
  obtain ⟨ends, inner, fits, type, line⟩ := (recognizes_closing recognizes).sound before run
  refine ⟨ends, .enclosed .bracket inner, .enclosed trivial trivial fits, type, ?_⟩
  rw [opens, ← passed, line]
  simp [Expr.codes, Opening.codes]

omit recognizes in
theorem complete_number {digits : List Code} (ready : Ready calculator desk)
    (valid : (Atom.number digits).Valid environment.config.word)
    (line : desk.scanner.line = digits ++ rest) (stops : Stops rest) :
    Leaves (operandHere environment nested) desk false rest := by
  obtain ⟨some, all, fits⟩ := valid
  cases digits with
  | nil => exact absurd rfl some
  | cons digit digits =>
      have stopsAt : (rest.headD Code.newline).isDigit = false := by
        cases isDigit : (rest.headD Code.newline).isDigit with
        | false => rfl
        | true => exact absurd stops.noName (by rw [Code.isNameCode_of_isDigit isDigit]; decide)
      obtain ⟨value, reached, read, left⟩ :=
        (recognizes_readNumber environment.config.word).ends ready
          ⟨digit :: digits, all, fits, line, stopsAt⟩ trivial
      refine ⟨.number value, reached, ?_, rfl, left⟩
      rw [operandHere_of_line line, operand, if_pos (all digit (by simp)), Attempt.bind_apply, read]
      rfl

omit recognizes in
theorem complete_text {codes : List Code} (ready : Ready calculator desk)
    (inside : Code.quote ∉ codes)
    (line : desk.scanner.line = Code.quote :: (codes ++ Code.quote :: rest)) :
    Leaves (operandHere environment nested) desk true rest := by
  obtain ⟨reached, read, -, left⟩ := ready.readText line inside
  refine ⟨.text codes, reached, ?_, rfl, left⟩
  rw [operandHere_of_line line, operand, if_neg (by decide), if_pos rfl, Attempt.bind_apply, read]
  rfl

theorem complete_bracket {inner : Expr} (fits : holds inner) (ready : Ready calculator desk)
    (line : desk.scanner.line = Code.leftParen :: (inner.codes ++ Code.rightParen :: rest)) :
    Leaves (operandHere environment nested) desk inner.isText rest := by
  obtain ⟨before, passed⟩ := ready.advance line (by decide)
  rw [Leaves, operandHere_of_line line, operand, if_neg (by decide), if_neg (by decide), if_pos rfl]
  exact (recognizes_closing recognizes).complete before ⟨inner, fits, rfl, passed⟩ trivial

/-- An operand that is an atom is read off the line. -/
theorem complete_atom {atom : Atom} (valid : atom.Valid environment.config.word)
    (ready : Ready calculator desk) (line : desk.scanner.line = atom.codes ++ rest)
    (stops : Stops rest) :
    Leaves (operandHere environment nested) desk atom.isText rest := by
  cases atom with
  | number digits => exact complete_number ready valid line stops
  | text codes => exact complete_text ready valid (by rw [line]; simp [Atom.codes])
  | «variable» name =>
      rw [Leaves, operandHere_of_isLetter (by
        rw [line]
        exact isLetter_headD_append valid.letter rest)]
      exact complete_variable valid ready line stops
  | textVariable name =>
      rw [Atom.codes, List.append_assoc] at line
      rw [Leaves, operandHere_of_isLetter (by
        rw [line]
        exact isLetter_headD_append valid.letter _)]
      exact complete_textVariable valid ready line stops
  | reading function =>
      rw [Leaves, operandHere_of_isLetter (by
        rw [line]
        exact isLetter_headD_append (letter_name function) rest)]
      exact complete_reading valid recognizes ready line stops

/-- An operand with an expression in brackets is read off the line. -/
theorem complete_enclosed {opening : Opening} {inner : Expr} (valid : opening.Valid)
    (takes : opening.Takes inner.isText) (fits : holds inner) (ready : Ready calculator desk)
    (line : desk.scanner.line = opening.codes ++ (inner.codes ++ Code.rightParen :: rest)) :
    Leaves (operandHere environment nested) desk (opening.returnsText inner.isText) rest := by
  cases opening with
  | bracket => exact complete_bracket recognizes fits ready line
  | element name =>
      rw [Opening.codes, List.append_assoc] at line
      rw [Leaves, operandHere_of_isLetter (by
        rw [line]
        exact isLetter_headD_append valid.letter _)]
      exact complete_element recognizes valid fits takes ready line
  | call function =>
      have letter : (desk.scanner.line.headD Code.newline).isLetter = true := by
        rw [line, Opening.codes, List.append_assoc]
        exact isLetter_headD_append (letter_name function) _
      rw [Leaves, operandHere_of_isLetter letter]
      exact complete_call recognizes valid fits takes ready line

variable (environment) in
/-- An operand is taken off the line with the expression in its brackets, if it has any. -/
theorem recognizes_operand :
    Recognizes calculator Stops (operandHere environment nested) Value.isText
      (Spells (Expr.Primary environment.config.word holds)) where
  sound := by
    intro desk reached value ready run
    replace run : operand environment .check nested desk.scanner.current desk =
      (.ok value, reached) := run
    rw [Scanner.current_eq_headD] at run
    -- The cases are those in which the code that the line opens with is looked at.
    unfold operand at run
    split at run
    next digit => exact sound_number ready digit run
    next =>
      split at run
      next quoted => exact sound_text ready quoted run
      next =>
        split at run
        next bracket => exact sound_bracket recognizes ready bracket run
        next =>
          split at run
          next letter => exact sound_reference recognizes ready letter run
          next => cases run
  complete := by
    rintro desk isText rest ready ⟨expr, primary, rfl, line⟩ stops
    cases primary with
    | atom valid => exact complete_atom recognizes valid ready line stops
    | enclosed valid takes fits =>
        rw [Expr.codes, List.append_assoc, List.append_assoc] at line
        exact complete_enclosed recognizes valid takes fits ready line

end

end
end Grammar
end HomeBasic
