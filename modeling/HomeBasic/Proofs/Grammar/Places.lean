import HomeBasic.Proofs.Grammar.Evaluation
import HomeBasic.Proofs.Grammar.Sentences
import HomeBasic.Proofs.Statement.Parallel

/-!
# Phrases and places

A statement starts with nothing pending, so there are all levels and all the room for each of
its expressions. A place to assign to is a name with its index, if it has one.

Main statements: expressions and numbers (`recognizes_phrase`, `recognizes_numeric`), and
places (`recognizes_numberTarget`, `recognizes_target`), are taken off the line.
-/

namespace HomeBasic
namespace Grammar

open Statement (expression number numberPair numberTarget target variableName)

/-- The stack that a statement starts with. -/
abbrev idle (config : Config) : BoundedStack Pending :=
  .empty config.calculatorDepth

/-- The line opens with codes of a kind. -/
def Opens {β : Type} (kind : β → List Code → Prop) (line : List Code) (seen : β)
    (rest : List Code) : Prop :=
  ∃ codes, kind seen codes ∧ line = codes ++ rest

/-- An expression starts as an operand or with a sign. -/
theorem exists_cons_of_wellFormed {size : WordSize} {expr : Expr}
    (wellFormed : expr.WellFormed size) :
    ∃ code others, expr.codes = code :: others ∧
      (Starts code ∨ ∃ mark : Sign, mark.code = code) := by
  induction wellFormed with
  | atom valid =>
      obtain ⟨code, others, opens, starts⟩ :=
        exists_cons_of_primary (.atom valid : Expr.Primary size (fun _ => True) _)
      exact ⟨code, others, opens, .inl starts⟩
  | enclosed valid takes _ _ =>
      obtain ⟨code, others, opens, starts⟩ :=
        exists_cons_of_primary (.enclosed valid takes trivial : Expr.Primary size (fun _ => True) _)
      exact ⟨code, others, opens, .inl starts⟩
  | @signed mark operand _ _ _ _ => exact ⟨_, operand.codes, rfl, .inr ⟨mark, rfl⟩⟩
  | binary _ _ _ _ _ _ inductionHypothesis _ =>
      obtain ⟨code, others, opens, starts⟩ := inductionHypothesis
      exact ⟨code, _, by rw [Expr.codes, opens, List.cons_append], starts⟩

/-- Nothing that is read in another way starts an expression. -/
theorem Phrase.exists_cons {config : Config} {isText : Bool} {codes : List Code}
    (phrase : Phrase config isText codes) :
    ∃ code others, codes = code :: others ∧
      code ∉ [Code.newline, Code.semicolon, Code.comma, Keyword.«at».code, Keyword.tab.code] := by
  obtain ⟨expr, fits, -, rfl⟩ := phrase
  obtain ⟨code, others, opens, starts⟩ := exists_cons_of_wellFormed fits.wellFormed
  refine ⟨code, others, opens, fun other => ?_⟩
  simp only [List.mem_cons, List.not_mem_nil, or_false] at other
  rcases starts with starts | ⟨mark, rfl⟩
  · rcases other with rfl | rfl | rfl | rfl | rfl <;> revert starts <;> decide
  · cases mark <;> revert other <;> decide

theorem ends_comma (rest : List Code) : Ends (Code.comma :: rest) :=
  ends_of_head (by simp)

theorem ends_nil : Ends [] :=
  ends_of_head (by simp)

section
variable {H : Type} [Console H] (config : Config)

/-! ## Expressions -/

/-- The codes of an expression that there is room for are a phrase. -/
theorem exists_phrase_iff {isText : Bool} (opens : List Code → Prop) :
    (∃ expr, FitsWithin (.blank config) config.maxNesting (idle config) expr ∧
      expr.isText = isText ∧ opens expr.codes) ↔
        ∃ codes, Phrase config isText codes ∧ opens codes := by
  constructor
  · rintro ⟨expr, fits, type, opens⟩
    exact ⟨expr.codes, ⟨expr, fits, type, rfl⟩, opens⟩
  · rintro ⟨_, ⟨expr, fits, type, rfl⟩, opens⟩
    exact ⟨expr, fits, type, opens⟩

theorem recognizes_phrase :
    Recognizes (idle config) Ends
      (expression (.blank config) .check : Attempt (Desk H) Value) Value.isText
      (Opens (Phrase config)) := by
  refine (recognizes_evaluateWithin (.blank config) config.maxNesting (idle config)).of_iff ?_
  exact fun line _ rest => exists_phrase_iff config fun codes => line = codes ++ rest

theorem recognizes_numeric :
    Recognizes (idle config) Ends
      (number (.blank config) .check : Attempt (Desk H) Int) (fun _ => ())
      (Opens fun _ => Phrase config false) := by
  refine (recognizes_number
    (recognizes_evaluateWithin (.blank config) config.maxNesting (idle config))).of_iff ?_
  exact fun line _ rest => exists_phrase_iff config fun codes => line = codes ++ rest

/-- Two numbers with a comma between them. -/
def Pair (codes : List Code) : Prop :=
  ∃ first second, Phrase config false first ∧ Phrase config false second ∧
    codes = first ++ Code.comma :: second

theorem recognizes_numberPair :
    Recognizes (idle config) Ends
      (numberPair (.blank config) .check : Attempt (Desk H) (Int × Int)) (fun _ => ())
      (Opens fun _ => Pair config) := by
  have second : ∀ first : Int, Recognizes (idle config) Ends
      (do
        Desk.expect Code.comma
        let second ← number (.blank config) .check
        return (first, second) : Attempt (Desk H) (Int × Int)) (fun _ => ())
      fun line _ rest => ∃ codes, Phrase config false codes ∧
        line = Code.comma :: (codes ++ rest) := by
    intro first
    refine (((recognizes_numeric config).andThen
      (fun second => Recognizes.pure (first, second) fun _ => ()) ?_).afterCode _ (by decide)
        (by decide)).of_iff ?_
    · rintro _ _ rest ⟨-, rfl⟩ ends
      exact ends
    · simp [Opens]
      grind
  refine ((recognizes_numeric config).andThen second ?_).of_iff ?_
  · rintro _ _ _ ⟨codes, _, rfl⟩ _
    exact ends_comma _
  · simp [Opens, Pair]
    grind

/-! ## Names and places -/

variable {config} {calculator : BoundedStack Pending} {desk reached : Desk H} {name : Name}
  {after rest : List Code} {use : NameUse}

omit [Console H] in
theorem stops_of_number (number : NameUse.ofAfter rest = .number)
    (noName : (rest.headD Code.newline).isNameCode = false) : Stops rest := by
  cases rest with
  | nil => exact ends_nil.toStops
  | cons code rest =>
      rw [NameUse.ofAfter] at number
      split_ifs at number with dollar call bracket
      exact ⟨noName, dollar, bracket⟩

omit [Console H] in
/-- Reading the name of a variable looks ahead and takes nothing off the line. -/
theorem recognizes_variableName :
    Recognizes calculator Anything (variableName : Attempt (Desk H) (Name × NameUse)) id
      fun line found rest => rest = line ∧ IsName found.1 ∧
        ∃ after, Heads found.1 after line ∧ NameUse.ofAfter after = found.2 where
  sound := by
    intro desk reached found ready run
    rw [variableName, Attempt.bind_apply, ready.look_apply] at run
    dsimp only at run
    by_cases letter : (desk.scanner.line.headD Code.newline).isLetter = true
    · obtain ⟨name, after, heads⟩ := exists_heads letter
      have looked : Heads name after desk.scanner.look.line := by rwa [ready.look_line]
      rw [letter, Bool.not_true, if_neg Bool.false_ne_true, Attempt.bind_apply,
        looked.readName] at run
      by_cases long : maxNameLength < name.length
      · rw [if_pos long] at run
        cases run
      · rw [if_neg long] at run
        dsimp only at run
        cases reserved : Function.isReserved name with
        | true =>
            rw [reserved, if_pos rfl] at run
            cases run
        | false =>
            rw [reserved, if_neg Bool.false_ne_true] at run
            cases run
            exact ⟨ready.look, ready.look_line,
              ⟨heads.letter, heads.codes, Nat.le_of_not_lt long, reserved⟩, after, heads, rfl⟩
    · rw [Bool.not_eq_true] at letter
      rw [letter, Bool.not_false, if_pos rfl] at run
      cases run
  complete := by
    rintro desk ⟨name, use⟩ rest ready ⟨rfl, named, after, heads, rfl⟩ _
    have letter : (desk.scanner.line.headD Code.newline).isLetter = true := by
      rw [heads.line]
      exact isLetter_headD_append heads.letter after
    have looked : Heads name after desk.scanner.look.line := by rwa [ready.look_line]
    refine ⟨(name, NameUse.ofAfter after), { desk with scanner := desk.scanner.look }, ?_, rfl,
      ready.look_line⟩
    rw [variableName, Attempt.bind_apply, ready.look_apply]
    dsimp only
    rw [letter, Bool.not_true, if_neg Bool.false_ne_true, Attempt.bind_apply, looked.readName,
      if_neg (Nat.not_lt.mpr named.short)]
    dsimp only
    have free : Function.isReserved name = false := named.free
    rw [free, if_neg Bool.false_ne_true]
    rfl

omit [Console H] in
theorem variableName_of_name (ready : Ready calculator desk) (named : IsName name)
    (line : desk.scanner.line = name ++ after)
    (stops : (after.headD Code.newline).isNameCode = false) :
    ∃ between, variableName desk = (.ok (name, NameUse.ofAfter after), between) ∧
      Ready calculator { between with scanner := between.scanner.skip name.length } ∧
      (between.scanner.skip name.length).line = after := by
  have heads : Heads name after desk.scanner.line := by
    rw [line]
    exact named.heads stops
  have ahead : desk.scanner.line = desk.scanner.line ∧
      IsName (name, NameUse.ofAfter after).1 ∧ ∃ behind,
        Heads (name, NameUse.ofAfter after).1 behind desk.scanner.line ∧
          NameUse.ofAfter behind = (name, NameUse.ofAfter after).2 :=
    ⟨rfl, named, after, heads, rfl⟩
  obtain ⟨found, between, run, same, left⟩ :=
    recognizes_variableName.complete ready ahead trivial
  obtain rfl : found = (name, NameUse.ofAfter after) := same
  obtain ⟨halfway, -⟩ := recognizes_variableName.sound ready run
  exact ⟨between, run, halfway.skip (left.trans line) named.plain⟩

omit [Console H] in
theorem exists_of_variableName (ready : Ready calculator desk)
    (run : variableName desk = (.ok (name, use), reached)) :
    IsName name ∧ ∃ after, NameUse.ofAfter after = use ∧ desk.scanner.line = name ++ after ∧
      (after.headD Code.newline).isNameCode = false ∧
      Ready calculator { reached with scanner := reached.scanner.skip name.length } ∧
      (reached.scanner.skip name.length).line = after := by
  obtain ⟨halfway, same, named, after, heads, use⟩ := recognizes_variableName.sound ready run
  exact ⟨named, after, use, heads.line, heads.stops,
    halfway.skip (same.trans heads.line) heads.plain⟩

omit [Console H] in
theorem recognizes_numberTarget :
    Recognizes calculator Anything (numberTarget : Attempt (Desk H) Name) (fun _ => ())
      fun line _ rest => Stops rest ∧ ∃ name, IsName name ∧ line = name ++ rest where
  sound := by
    intro desk reached found ready run
    obtain ⟨⟨name, use⟩, between, read, run⟩ := Attempt.exists_of_bind_eq_ok run
    obtain ⟨named, after, same, line, noName, passed, left⟩ := exists_of_variableName ready read
    dsimp only at run
    rw [Attempt.bind_apply, Desk.skip_apply] at run
    dsimp only at run
    by_cases number : use = .number
    · rw [if_neg (not_not.mpr number), Attempt.bind_apply, passed.look_apply] at run
      cases run
      have behind := passed.look_line.trans left
      exact ⟨passed.look, behind ▸ stops_of_number (same.trans number) noName, _, named,
        by rw [line]; exact congrArg _ behind.symm⟩
    · rw [if_pos number] at run
      cases run
  complete := by
    rintro desk _ rest ready ⟨stops, name, named, line⟩ _
    obtain ⟨between, read, passed, left⟩ := variableName_of_name ready named line stops.noName
    refine ⟨name, { between with scanner := (between.scanner.skip name.length).look }, ?_, rfl,
      passed.look_line.trans left⟩
    rw [numberTarget, Attempt.bind_apply, read]
    dsimp only
    rw [Attempt.bind_apply, Desk.skip_apply]
    dsimp only
    rw [stops.number, if_neg (not_not.mpr rfl), Attempt.bind_apply, passed.look_apply]
    rfl

variable (config) in
theorem recognizes_index :
    Recognizes (idle config) Anything
      (Expression.subscript (expression (.blank config) .check) : Attempt (Desk H) Int)
      (fun _ => ())
      fun line _ rest => ∃ index, Phrase config false index ∧
        line = Code.leftParen :: (index ++ Code.rightParen :: rest) := by
  refine (recognizes_subscript
    (recognizes_evaluateWithin (.blank config) config.maxNesting (idle config))).of_iff ?_
  exact fun line _ rest => exists_phrase_iff config
    fun codes => line = Code.leftParen :: (codes ++ Code.rightParen :: rest)

variable (config) in
/-- What is behind the name of a place is read as its use tells. -/
def placeBehind (name : Name) : NameUse → Attempt (Desk H) Target
  | .number => do
      let _ ← Desk.look
      return .number name
  | .text => do
      Desk.skip 1
      let _ ← Desk.look
      return .text name
  | .array => do
      let index ← Expression.subscript (expression (.blank config) .check)
      let _ ← Desk.look
      return .element name index
  | .textFunction => throw .syntaxError

theorem target_apply (read : variableName desk = (.ok (name, use), reached)) :
    target (.blank config) .check desk =
      placeBehind config name use
        { reached with scanner := reached.scanner.skip name.length } := by
  rw [target, Attempt.bind_apply, read]
  cases use <;> rfl

theorem recognizes_element (name : Name) :
    Recognizes (idle config) Anything (placeBehind config name .array : Attempt (Desk H) Target)
      Target.isText fun line seen rest => seen = false ∧ ∃ index, Phrase config false index ∧
        line = Code.leftParen :: (index ++ Code.rightParen :: rest) := by
  have found : ∀ index : Int, Recognizes (idle config) Anything
      (do let _ ← Desk.look; return Target.element name index : Attempt (Desk H) Target)
      Target.isText fun line seen rest => seen = false ∧ rest = line := fun index =>
    recognizes_found (Target.element name index) Target.isText
  refine ((recognizes_index config).andThen found fun _ _ _ _ _ => trivial).of_iff
    fun line seen rest => ⟨?_, ?_⟩
  · rintro ⟨_, middle, ⟨index, phrase, opens⟩, seen, rfl⟩
    exact ⟨seen, index, phrase, opens⟩
  · rintro ⟨seen, index, phrase, opens⟩
    exact ⟨(), rest, ⟨index, phrase, opens⟩, seen, rfl⟩

theorem sound_placeBehind {found : Target} (named : IsName name)
    (ready : Ready (idle config) desk) (same : NameUse.ofAfter desk.scanner.line = use)
    (run : placeBehind config name use desk = (.ok found, reached)) :
    Ready (idle config) reached ∧ ∃ codes, Place config found.isText codes ∧
      name ++ desk.scanner.line = codes ++ reached.scanner.line := by
  cases use with
  | number =>
      obtain ⟨ends, seen, left⟩ :=
        (recognizes_found (Target.number name) Target.isText).sound ready run
      rw [seen, left]
      exact ⟨ends, name, .number named, rfl⟩
  | text =>
      obtain ⟨rest, opens⟩ := exists_of_text same
      obtain ⟨behind, gone⟩ := ready.skipDollar opens
      obtain ⟨ends, seen, left⟩ :=
        (recognizes_found (Target.text name) Target.isText).sound behind run
      rw [seen, left, opens, gone]
      exact ⟨ends, name ++ [Code.dollar], .text named, by simp⟩
  | array =>
      obtain ⟨ends, seen, index, phrase, opens⟩ := (recognizes_element name).sound ready run
      rw [seen, opens]
      exact ⟨ends, name ++ Code.leftParen :: (index ++ [Code.rightParen]), .element named phrase,
        by simp⟩
  | textFunction => cases run

/-- A place to assign to is taken off the line, with the index in its brackets. -/
theorem recognizes_target :
    Recognizes (idle config) Stops
      (target (.blank config) .check : Attempt (Desk H) Target) Target.isText
      (Opens (Place config)) where
  sound := by
    intro desk reached found ready run
    obtain ⟨⟨name, use⟩, between, read, -⟩ := Attempt.exists_of_bind_eq_ok run
    obtain ⟨named, after, same, line, -, passed, left⟩ := exists_of_variableName ready read
    rw [target_apply read] at run
    rw [line, ← left]
    exact sound_placeBehind named passed (left ▸ same) run
  complete := by
    rintro desk isText rest ready ⟨codes, place, line⟩ stops
    cases place with
    | number named =>
        obtain ⟨between, read, passed, left⟩ := variableName_of_name ready named line stops.noName
        rw [target_apply read, stops.number]
        exact (recognizes_found (Target.number codes) Target.isText).complete passed
          ⟨rfl, left.symm⟩ trivial
    | @text name named =>
        rw [List.append_assoc] at line
        obtain ⟨between, read, passed, left⟩ := variableName_of_name ready named line rfl
        obtain ⟨behind, gone⟩ := passed.skipDollar left
        rw [target_apply read, List.singleton_append, stops.text]
        exact (recognizes_found (Target.text name) Target.isText).complete behind
          ⟨rfl, gone.symm⟩ trivial
    | @element name index named phrase =>
        have opens : desk.scanner.line =
            name ++ Code.leftParen :: (index ++ Code.rightParen :: rest) := by
          rw [line]
          simp
        obtain ⟨between, read, passed, left⟩ := variableName_of_name ready named opens rfl
        rw [target_apply read]
        exact (recognizes_element name).complete passed ⟨rfl, index, phrase, left⟩ trivial

end
end Grammar
end HomeBasic
