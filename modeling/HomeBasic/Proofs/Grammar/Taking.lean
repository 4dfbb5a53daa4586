import Mathlib.Data.List.TakeWhile
import HomeBasic.Proofs.Expression.Stack
import HomeBasic.Proofs.Grammar.Expressions
import HomeBasic.Proofs.Scanner.Twins

/-!
# What a step takes off a line

No space stands outside of the texts and remarks of a crunched line (`Compact`), so the
scanner passes over nothing but what it reads. A step recognizes a language where it ends well
exactly on the lines that open with a sentence of it, and takes that sentence off the line
(`Recognizes`). A name or a number goes on as far as it can, so what follows a sentence must
not belong to it; that is only asked for where a sentence is to be recognized, and never
where one was.

Main statements: a step and then another recognize the sentences of the one followed by those
of the other (`Recognizes.bind`), and what looking, passing over and reading names take off a
line (`recognizes_expect`, `Ready.skip`, `Ready.readName`, …).
-/

namespace HomeBasic

/-- The code opens neither a text nor a remark. -/
def Code.Plain (code : Code) : Prop :=
  code ≠ quote ∧ code ≠ StatementWord.rem.code

instance (code : Code) : Decidable code.Plain :=
  inferInstanceAs (Decidable (_ ∧ _))

theorem exists_cons_of_headD {line : List Code} {code : Code}
    (head : line.headD Code.newline = code) (inLine : code ≠ Code.newline) :
    ∃ rest, line = code :: rest := by
  cases line with
  | nil => exact absurd head.symm inLine
  | cons first rest => exact ⟨rest, congrArg (· :: rest) head⟩

theorem Scanner.line_skipToEnd (scanner : Scanner) : scanner.skipToEnd.line = [] :=
  (line_pass (Nat.le_refl _)).trans List.drop_length

/-- A code of a line does not end it. -/
theorem Scanner.ne_newline_of_line {scanner : Scanner} {code : Code} {rest : List Code}
    (line : scanner.line = code :: rest) : code ≠ Code.newline := by
  have kept := List.mem_takeWhile_imp (line ▸ List.mem_cons_self : code ∈ scanner.line)
  rwa [bne_iff_ne] at kept

namespace Grammar

/-! ## Compact lines -/

/-- No space stands outside of texts and remarks. -/
def Compact : (quoted : Bool) → List Code → Prop
  | _, [] => True
  | true, code :: rest => Compact (code != Code.quote) rest
  | false, code :: rest =>
      code ≠ Code.space ∧ (code = StatementWord.rem.code ∨ Compact (code == Code.quote) rest)

theorem Compact.tail {code : Code} {rest : List Code} (compact : Compact false (code :: rest))
    (plain : code.Plain) : Compact false rest := by
  have onward := compact.2.resolve_left plain.2
  rwa [beq_false_of_ne plain.1] at onward

theorem Compact.behind {front rest : List Code} (compact : Compact false (front ++ rest))
    (plain : ∀ code ∈ front, code.Plain) : Compact false rest := by
  induction front with
  | nil => exact compact
  | cons code front inductionHypothesis =>
      exact inductionHypothesis (compact.tail (plain code (by simp)))
        fun other member => plain other (List.mem_cons_of_mem _ member)

theorem Compact.inText {rest : List Code} (compact : Compact false (Code.quote :: rest)) :
    Compact true rest :=
  compact.2.resolve_left (by decide)

theorem Compact.behindText {text rest : List Code}
    (compact : Compact true (text ++ Code.quote :: rest)) (inside : Code.quote ∉ text) :
    Compact false rest := by
  induction text with
  | nil => exact compact
  | cons code text inductionHypothesis =>
      rw [List.mem_cons, not_or] at inside
      have onward : Compact (code != Code.quote) (text ++ Code.quote :: rest) := compact
      rw [bne_iff_ne.mpr (Ne.symm inside.1)] at onward
      exact inductionHypothesis onward inside.2

theorem Compact.solid {line : List Code} (compact : Compact false line) :
    line.headD Code.newline ≠ Code.space := by
  cases line with
  | nil => decide
  | cons code rest => exact compact.1

theorem plain_of_isNameCode {code : Code} (named : code.isNameCode = true) : code.Plain := by
  constructor <;> rintro rfl <;> revert named <;> decide

/-! ## What may follow -/

/-- Neither a name nor a number goes on with what follows. -/
structure Stops (rest : List Code) : Prop where
  noName : (rest.headD Code.newline).isNameCode = false
  noDollar : rest.headD Code.newline ≠ Code.dollar
  noBracket : rest.headD Code.newline ≠ Code.leftParen

/-- No expression goes on with what follows. -/
structure Ends (rest : List Code) : Prop extends Stops rest where
  noOperator : Operator.ofCode (rest.headD Code.newline) = .absent

/-- What follows an expression in every sentence of the language. -/
theorem ends_of_head {rest : List Code}
    (head : rest.headD Code.newline ∈ [Code.newline, Code.rightParen, Code.comma,
      Code.semicolon, Keyword.then.code, Keyword.«to».code]) : Ends rest := by
  simp only [List.mem_cons, List.not_mem_nil, or_false] at head
  rcases head with same | same | same | same | same | same <;>
    exact ⟨⟨by rw [same]; rfl, by rw [same]; decide, by rw [same]; decide⟩, by rw [same]; rfl⟩

theorem stops_code (operator : Operator) (rest : List Code) : Stops (operator.code :: rest) := by
  have mark : operator.code.isNameCode = false ∧ operator.code ≠ Code.dollar ∧
      operator.code ≠ Code.leftParen := by
    cases operator <;> decide
  exact ⟨mark.1, mark.2.1, mark.2.2⟩

/-! ## Desks before a compact line -/

section
variable {H α β γ δ : Type} {calculator : BoundedStack Pending} {desk reached : Desk H}
  {code : Code} {front rest : List Code}

/-- A desk stands before a compact line, with a stack. -/
structure Ready (calculator : BoundedStack Pending) (desk : Desk H) : Prop where
  compact : Compact false desk.scanner.line
  calculator : desk.calculator = calculator

namespace Ready

theorem look_line (ready : Ready calculator desk) :
    desk.scanner.look.line = desk.scanner.line := by
  refine Scanner.look_line_of_current (Scanner.current_eq_headD _) ready.compact.solid

theorem look (ready : Ready calculator desk) :
    Ready calculator { desk with scanner := desk.scanner.look } :=
  ⟨by rw [ready.look_line]; exact ready.compact, ready.calculator⟩

/-- Looking finds the code that the line opens with. -/
theorem look_apply (ready : Ready calculator desk) :
    Desk.look desk =
      (.ok (desk.scanner.line.headD Code.newline), { desk with scanner := desk.scanner.look }) := by
  rw [Desk.look_apply, Scanner.current_eq_headD, ready.look_line]

theorem advance_line (opens : desk.scanner.line = code :: rest) (compact : Compact false rest) :
    desk.scanner.advance.line = rest := by
  rw [Scanner.line_advance, opens, List.drop_one, List.tail_cons]
  cases rest with
  | nil => rfl
  | cons next rest => exact List.dropWhile_cons_of_neg (by simpa using compact.1)

theorem advance (ready : Ready calculator desk) (opens : desk.scanner.line = code :: rest)
    (plain : code.Plain) :
    Ready calculator { desk with scanner := desk.scanner.advance } ∧
      desk.scanner.advance.line = rest := by
  have compact : Compact false rest := by
    have compact := ready.compact
    rw [opens] at compact
    exact compact.tail plain
  have line := advance_line opens compact
  exact ⟨⟨by rw [line]; exact compact, ready.calculator⟩, line⟩

theorem skip (ready : Ready calculator desk) (opens : desk.scanner.line = front ++ rest)
    (plain : ∀ code ∈ front, code.Plain) :
    Ready calculator { desk with scanner := desk.scanner.skip front.length } ∧
      (desk.scanner.skip front.length).line = rest := by
  have line : (desk.scanner.skip front.length).line = rest := by
    rw [Scanner.line_skip, opens, List.drop_left]
  have compact := ready.compact
  rw [opens] at compact
  exact ⟨⟨by rw [line]; exact compact.behind plain, ready.calculator⟩, line⟩

theorem skipDollar (ready : Ready calculator desk)
    (opens : desk.scanner.line = Code.dollar :: rest) :
    Ready calculator { desk with scanner := desk.scanner.skip 1 } ∧
      (desk.scanner.skip 1).line = rest :=
  @skip _ _ _ [Code.dollar] _ ready opens fun code member => by
    rw [List.mem_singleton.mp member]
    decide

end Ready

/-! ## Languages -/

/--
A step ends well exactly on the lines that a language tells, and leaves of them what it tells.
Of what the step yields, the language tells what is seen of it.
-/
structure Recognizes (calculator : BoundedStack Pending) (closed : List Code → Prop)
    (step : Attempt (Desk H) α) (view : α → β)
    (language : List Code → β → List Code → Prop) : Prop where
  sound : ∀ {desk reached : Desk H} {value : α}, Ready calculator desk →
    step desk = (.ok value, reached) →
    Ready calculator reached ∧ language desk.scanner.line (view value) reached.scanner.line
  complete : ∀ {desk : Desk H} {seen : β} {rest : List Code}, Ready calculator desk →
    language desk.scanner.line seen rest → closed rest →
    ∃ value reached, step desk = (.ok value, reached) ∧ view value = seen ∧
      reached.scanner.line = rest

/-- Whatever may follow. -/
abbrev Anything (_rest : List Code) : Prop := True

namespace Recognizes

variable {closed before : List Code → Prop} {step : Attempt (Desk H) α}
  {next : α → Attempt (Desk H) γ} {view : α → β} {look : γ → δ}
  {language other : List Code → β → List Code → Prop} {behind : List Code → δ → List Code → Prop}

/-- The second step may go by what is seen of what the first one yields. -/
theorem bind (first : Recognizes calculator before step view language)
    (further : β → List Code → δ → List Code → Prop)
    (rest : ∀ value, Recognizes calculator closed (next value) look (further (view value)))
    (closes : ∀ seen middle found rest, further seen middle found rest → closed rest →
      before middle) :
    Recognizes calculator closed (step >>= next) look fun line found rest =>
      ∃ seen middle, language line seen middle ∧ further seen middle found rest where
  sound := by
    intro desk reached value ready run
    obtain ⟨seen, between, opened, closing⟩ := Attempt.exists_of_bind_eq_ok run
    obtain ⟨halfway, opening⟩ := first.sound ready opened
    obtain ⟨ends, ending⟩ := (rest seen).sound halfway closing
    exact ⟨ends, view seen, between.scanner.line, opening, ending⟩
  complete := by
    rintro desk found last ready ⟨seen, middle, opening, ending⟩ follows
    obtain ⟨value, between, opened, rfl, rfl⟩ :=
      first.complete ready opening (closes seen middle found last ending follows)
    obtain ⟨halfway, -⟩ := first.sound ready opened
    obtain ⟨result, reached, closing, same, line⟩ := (rest value).complete halfway ending follows
    exact ⟨result, reached, by rw [Attempt.bind_apply, opened]; exact closing, same, line⟩

theorem andThen (first : Recognizes calculator before step view language)
    (rest : ∀ value, Recognizes calculator closed (next value) look behind)
    (closes : ∀ middle found rest, behind middle found rest → closed rest → before middle) :
    Recognizes calculator closed (step >>= next) look fun line found rest =>
      ∃ seen middle, language line seen middle ∧ behind middle found rest :=
  first.bind (fun _ => behind) rest fun _ => closes

theorem of_iff (recognizes : Recognizes calculator closed step view language)
    (same : ∀ line seen rest, language line seen rest ↔ other line seen rest) :
    Recognizes calculator closed step view other where
  sound ready run := (recognizes.sound ready run).imp_right (same _ _ _).mp
  complete ready opens := recognizes.complete ready ((same _ _ _).mpr opens)

theorem pure (value : α) (view : α → β) :
    Recognizes calculator closed (Pure.pure value : Attempt (Desk H) α) view
      fun line seen rest => seen = view value ∧ rest = line where
  sound := by
    rintro desk reached result ready ⟨⟩
    exact ⟨ready, rfl, rfl⟩
  complete := by
    rintro desk seen rest ready ⟨rfl, rfl⟩ _
    exact ⟨value, desk, rfl, rfl, rfl⟩

theorem throw (fault : Fault) (view : α → β) :
    Recognizes calculator closed (MonadExcept.throw fault : Attempt (Desk H) α) view
      fun _ _ _ => False where
  sound _ run := by cases run
  complete _ opens := opens.elim

/-- Where nothing is seen of what the step yields, it is enough that it ends well. -/
theorem ends {nothing : α → Unit} {silent : List Code → Unit → List Code → Prop}
    (recognizes : Recognizes calculator closed step nothing silent)
    (ready : Ready calculator desk) (opens : silent desk.scanner.line () rest)
    (follows : closed rest) :
    ∃ value reached, step desk = (.ok value, reached) ∧ reached.scanner.line = rest := by
  obtain ⟨value, reached, run, -, line⟩ := recognizes.complete ready opens follows
  exact ⟨value, reached, run, line⟩

end Recognizes

/-- Looking takes nothing off the line. -/
theorem recognizes_look :
    Recognizes calculator Anything (Desk.look : Attempt (Desk H) Code) id
      fun line seen rest => seen = line.headD Code.newline ∧ rest = line where
  sound := by
    intro desk reached value ready run
    cases ready.look_apply.symm.trans run
    exact ⟨ready.look, rfl, ready.look_line⟩
  complete := by
    rintro desk seen rest ready ⟨rfl, rfl⟩ _
    exact ⟨_, _, ready.look_apply, rfl, ready.look_line⟩

theorem recognizes_found (value : α) (view : α → β) :
    Recognizes calculator Anything (do let _ ← Desk.look; return value : Attempt (Desk H) α) view
      fun line seen rest => seen = view value ∧ rest = line :=
  (recognizes_look.andThen (fun _ => Recognizes.pure value view)
    fun _ _ _ _ _ => trivial).of_iff fun _ _ _ => by simp

/-- A code that has to be there is taken off the line. -/
theorem recognizes_expect (inLine : code ≠ Code.newline) (plain : code.Plain) :
    Recognizes calculator Anything (Desk.expect code : Attempt (Desk H) Unit) id
      fun line _ rest => line = code :: rest where
  sound := by
    intro desk reached value ready run
    have looked := ready.look_line
    rw [Desk.expect_apply, Scanner.current_eq_headD, looked] at run
    split at run
    next same =>
      cases run
      cases line : desk.scanner.line with
      | nil =>
          rw [line] at same
          exact absurd same.symm inLine
      | cons first rest =>
          rw [line] at same
          obtain rfl : first = code := same
          have passed := ready.look.advance (looked.trans line) plain
          exact ⟨passed.1, congrArg (first :: ·) passed.2.symm⟩
    next => cases run
  complete := by
    intro desk _ rest ready line _
    have looked := ready.look_line.trans line
    have current : desk.scanner.look.current = code := by
      rw [Scanner.current_eq_headD, looked, List.headD_cons]
    exact ⟨(), _, (Desk.expect_apply desk code).trans (if_pos current), rfl,
      (ready.look.advance looked plain).2⟩

/-- A code that has to be there, and then what is behind it. -/
theorem Recognizes.afterCode {closed : List Code → Prop} {next : Attempt (Desk H) γ}
    {look : γ → δ} {behind : List Code → δ → List Code → Prop}
    (rest : Recognizes calculator closed next look behind) (code : Code)
    (inLine : code ≠ Code.newline) (plain : code.Plain) :
    Recognizes calculator closed (do Desk.expect code; next) look fun line found rest =>
      ∃ middle, line = code :: middle ∧ behind middle found rest :=
  ((recognizes_expect inLine plain).andThen (fun _ => rest) fun _ _ _ _ _ => trivial).of_iff
    fun _ _ _ => by simp

/-- The line has to end. -/
theorem recognizes_expectEnd :
    Recognizes calculator Anything (Desk.expectEnd : Attempt (Desk H) Unit) id
      fun line _ rest => line = [] ∧ rest = [] where
  sound := by
    intro desk reached value ready run
    rw [Desk.expectEnd_apply] at run
    split at run
    next ends =>
      cases run
      have line := Scanner.line_eq_nil ends
      exact ⟨ready.look, ready.look_line.symm.trans line, line⟩
    next => cases run
  complete := by
    rintro desk _ rest ready ⟨line, rfl⟩ _
    have looked := ready.look_line.trans line
    have current : desk.scanner.look.current = Code.newline := by
      rw [Scanner.current_eq_headD, looked, List.headD_nil]
    exact ⟨(), _, (Desk.expectEnd_apply desk).trans (if_pos current), rfl, looked⟩

end
end Grammar
end HomeBasic
