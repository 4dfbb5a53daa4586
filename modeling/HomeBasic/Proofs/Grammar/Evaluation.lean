import HomeBasic.Proofs.Grammar.Operands

/-!
# Expressions are recognized

The operations that are pending in the middle of an evaluation are what an expression has in
front of the operand that is to follow: signs, and operators with what is left of them
(`Frame`). To fold one of them is to close it around what has been read behind it.

Main statement: an evaluation ends well exactly on the lines that open with an expression of
the language which there are levels and room enough for, and takes it off the line
(`recognizes_evaluateWithin`).
-/

namespace HomeBasic
namespace Grammar

open Climbing (Folding minimum)
open Expression (Folded evaluateWithin fold foldAll operand operations readOperator)

/-! ## Frames -/

/-- What is pending in front of an operand: a sign, or an operator with what is left of it. -/
inductive Frame
  | sign (mark : Sign)
  | left (expr : Expr) (operator : Operator)

namespace Frame

/-- The codes in front of the operand. -/
def codes : Frame → List Code
  | sign mark => [mark.code]
  | left expr operator => expr.codes ++ [operator.code]

/-- How tightly it binds the operand. -/
def priority : Frame → Nat
  | sign mark => mark.priority
  | left _ operator => operator.priority

/-- What it makes of the operand. -/
def around : Frame → Expr → Expr
  | sign mark, operand => .signed mark operand
  | left expr operator, operand => .binary expr operator operand

/-- The operation waits for what is behind the frame. -/
def Pends : Frame → Pending → Prop
  | sign mark, pending =>
      pending.operator = .subtract ∧ pending.priority = mark.priority ∧
        pending.value.isText = false
  | left expr operator, pending =>
      pending.operator = operator ∧ pending.priority = operator.priority ∧
        pending.value.isText = expr.isText

/-- What an operand has to bind tighter than behind so many frames. -/
def outermost : List Frame → Nat
  | [] => 0
  | frame :: _ => frame.priority

/-- The codes of frames, the lowest first. -/
def stackCodes : List Frame → List Code
  | [] => []
  | frame :: frames => stackCodes frames ++ frame.codes

end Frame

section
variable {size : WordSize} {levels room : Nat} {frames : List Frame} {expr : Expr}

/-- An expression that may stand behind frames. -/
structure Grown (size : WordSize) (levels room : Nat) (frames : List Frame) (expr : Expr) :
    Prop where
  wellFormed : expr.WellFormed size
  tight : expr.Tight (Frame.outermost frames)
  height : expr.height ≤ levels
  pending : expr.pending + frames.length < room

/-- What is left of every operator may stand where it does, and is closed by the operator. -/
def Sound (size : WordSize) (levels room : Nat) : List Frame → Prop
  | [] => True
  | .sign _ :: frames => Sound size levels room frames
  | .left expr operator :: frames =>
      Grown size levels room frames expr ∧ operator ≠ .absent ∧
        expr.Yields operator.priority ∧ Frame.outermost frames < operator.priority ∧
        Sound size levels room frames

theorem Sound.tail {frame : Frame} (sound : Sound size levels room (frame :: frames)) :
    Sound size levels room frames := by
  cases frame with
  | sign sign => exact sound
  | left expr operator => exact sound.2.2.2.2

theorem grown_of_primary
    (primary : expr.Primary size (Expr.Fits size levels (room - (frames.length + 1))))
    (inside : frames.length < room) : Grown size levels room frames expr := by
  cases primary with
  | atom valid =>
      refine ⟨.atom valid, trivial, Nat.zero_le _, ?_⟩
      change 0 + frames.length < room
      omega
  | enclosed valid takes fits =>
      refine ⟨.enclosed valid takes fits.wellFormed, trivial, fits.height, ?_⟩
      have pending := fits.pending
      simp only [Expr.pending]
      omega

theorem yields_of_primary {holds : Expr → Prop} (primary : expr.Primary size holds)
    (priority : Nat) : expr.Yields priority := by
  cases primary <;> trivial

/-- An operator binds tighter than nothing. -/
theorem tight_zero (expr : Expr) (wellFormed : expr.WellFormed size) : expr.Tight 0 := by
  induction wellFormed with
  | atom _ => exact trivial
  | enclosed _ _ _ _ => exact trivial
  | signed _ _ _ _ => exact trivial
  | binary present _ _ _ _ _ inductionHypothesis _ =>
      exact ⟨Nat.pos_of_ne_zero (Operator.priority_eq_zero_iff.not.mpr present),
        inductionHypothesis⟩

theorem yields_zero (expr : Expr) : expr.Yields 0 := by
  induction expr with
  | atom _ => exact trivial
  | enclosed _ _ _ => exact trivial
  | signed mark operand inductionHypothesis => exact ⟨Nat.zero_le _, inductionHypothesis⟩
  | binary left operator right _ inductionHypothesis => exact ⟨Nat.zero_le _, inductionHypothesis⟩

theorem Grown.fits (grown : Grown size levels room [] expr) :
    expr.Fits size (levels + 1) room :=
  ⟨grown.wellFormed, Nat.lt_succ_of_le grown.height, grown.pending⟩

end

/-! ## Folding -/

section
variable (environment : Environment) {pending : Pending} {value result : Value}

/-- Checking folds exactly what goes together, and makes a number of it. -/
theorem fold_check (pending : Pending) (value : Value) :
    (∃ fault, fold environment .check pending value = .error fault ∧
      ¬pending.operator.Joins pending.value.isText value.isText) ∨
    fold environment .check pending value = .ok (.number 0) ∧
      pending.operator.Joins pending.value.isText value.isText := by
  rcases pending with ⟨left | left, operator, priority⟩ <;> rcases value with right | right
  · exact .inr ⟨rfl, rfl, fun text => by cases text⟩
  · exact .inl ⟨_, rfl, fun joins => by cases joins.1⟩
  · exact .inl ⟨_, rfl, fun joins => by cases joins.1⟩
  · cases operator <;>
      first
        | exact .inr ⟨rfl, rfl, fun _ => by simp⟩
        | exact .inl ⟨_, rfl, fun joins => by simpa using joins.2 rfl⟩

theorem joins_of_fold (folded : fold environment .check pending value = .ok result) :
    pending.operator.Joins pending.value.isText value.isText ∧ result = .number 0 := by
  rcases fold_check environment pending value with ⟨fault, failed, -⟩ | ⟨folds, joins⟩
  · rw [failed] at folded
    cases folded
  · rw [folds] at folded
    cases folded
    exact ⟨joins, rfl⟩

theorem fold_of_joins (joins : pending.operator.Joins pending.value.isText value.isText) :
    fold environment .check pending value = .ok (.number 0) := by
  rcases fold_check environment pending value with ⟨fault, -, never⟩ | ⟨folds, -⟩
  · exact absurd joins never
  · exact folds

theorem foldAll_of_lt (mode : Mode) {operator : Operator} {stack : List Pending}
    (tighter : minimum stack < operator.priority) (value : Value) :
    foldAll environment mode operator stack value = .ok (.waiting value stack) := by
  cases stack with
  | nil => exact congrArg Except.ok (if_pos tighter)
  | cons pending stack => exact if_pos tighter

variable {size : WordSize} {levels room : Nat} {frames : List Frame} {above : List Pending}
  {expr : Expr}

/-- A frame that an operator closes is closed around what has been read behind it. -/
theorem Grown.around {frame : Frame} {operator : Operator}
    (sound : Sound size levels room (frame :: frames)) (pends : frame.Pends pending)
    (grown : Grown size levels room (frame :: frames) expr) (same : expr.isText = value.isText)
    (yields : expr.Yields operator.priority) (closes : operator.priority ≤ frame.priority)
    (joins : pending.operator.Joins pending.value.isText value.isText) :
    Grown size levels room frames (frame.around expr) ∧
      (frame.around expr).Yields operator.priority ∧ (frame.around expr).isText = false := by
  have pendings := grown.pending
  rw [List.length_cons] at pendings
  cases frame with
  | sign mark =>
      have number : expr.isText = false := by rw [same, ← joins.1, pends.2.2]
      have wellFormed : (Expr.signed mark expr).WellFormed size :=
        .signed number grown.tight grown.wellFormed
      have yielding : (Expr.signed mark expr).Yields operator.priority := ⟨closes, yields⟩
      refine ⟨⟨wellFormed, trivial, grown.height, ?_⟩, yielding, rfl⟩
      change expr.pending + 1 + frames.length < room
      omega
  | left first awaiting =>
      obtain ⟨before, present, closed, tighter, -⟩ := sound
      have together : awaiting.Joins first.isText expr.isText := by
        rw [same, ← pends.1, ← pends.2.2]
        exact joins
      have wellFormed : (Expr.binary first awaiting expr).WellFormed size :=
        .binary present together closed grown.tight before.wellFormed grown.wellFormed
      have tight : (Expr.binary first awaiting expr).Tight (Frame.outermost frames) :=
        ⟨tighter, before.tight⟩
      have yielding : (Expr.binary first awaiting expr).Yields operator.priority :=
        ⟨closes, yields⟩
      refine ⟨⟨wellFormed, tight, Nat.max_le.mpr ⟨before.height, grown.height⟩, ?_⟩, yielding, rfl⟩
      have others := before.pending
      change max first.pending (expr.pending + 1) + frames.length < room
      omega

/-- What folding comes to, of the codes that have been read. -/
inductive Comes (size : WordSize) (levels room : Nat) (base : List Pending)
    (operator : Operator) (codes : List Code) : Folded → Prop
  | ended {result : Value} {expr : Expr} :
      operator = .absent → Grown size levels room [] expr → expr.isText = result.isText →
      codes = expr.codes → Comes size levels room base operator codes (.ended result base)
  | waiting {result : Value} {expr : Expr} {frames : List Frame} (above : List Pending) :
      operator ≠ .absent → List.Forall₂ Frame.Pends frames above →
      Sound size levels room (.left expr operator :: frames) → expr.isText = result.isText →
      codes = Frame.stackCodes frames ++ expr.codes →
      Comes size levels room base operator codes
        (.waiting result (above ++ Pending.sentinel :: base))

theorem ne_absent_of_pends (pends : List.Forall₂ Frame.Pends frames above)
    (sound : Sound size levels room frames) : ∀ pending ∈ above, pending.operator ≠ .absent := by
  induction pends with
  | nil => simp
  | @cons frame pending frames above first _ inductionHypothesis =>
      refine List.forall_mem_cons.mpr ⟨?_, inductionHypothesis sound.tail⟩
      cases frame with
      | sign mark =>
          rw [first.1]
          exact Operator.noConfusion
      | left expr operator =>
          rw [first.1]
          exact sound.2.1

theorem minimum_of_pends (pends : List.Forall₂ Frame.Pends frames above) :
    minimum above = Frame.outermost frames := by
  cases pends with
  | nil => rfl
  | @cons frame _ _ _ first _ => cases frame <;> exact first.2.1

/-- What folding comes to, when frames are in front of what has been read. -/
theorem comes_of_folding {operator : Operator} {base : List Pending}
    {outcome : Except Fault Folded}
    (folding : Folding environment .check base operator above value outcome)
    (pends : List.Forall₂ Frame.Pends frames above) (sound : Sound size levels room frames)
    (grown : Grown size levels room frames expr) (yields : expr.Yields operator.priority)
    (same : expr.isText = value.isText) {folded : Folded} (run : outcome = .ok folded) :
    Comes size levels room base operator (Frame.stackCodes frames ++ expr.codes) folded := by
  -- A frame that is closed is what has been read behind the next one, so the hypothesis has to be
  -- about any expression.
  induction folding generalizing frames expr with
  | @waits above value tighter =>
      cases run
      have present : operator ≠ .absent := Climbing.ne_absent_of_priority tighter
      rw [minimum_of_pends pends] at tighter
      exact .waiting above present pends ⟨grown, present, yields, tighter, sound⟩ same rfl
  | ends absent =>
      cases run
      cases pends
      exact .ended absent grown same rfl
  | fails _ _ => cases run
  | folds looser folds _ inductionHypothesis =>
      cases pends with
      | @cons frame _ frames _ first others =>
          obtain ⟨joins, rfl⟩ := joins_of_fold environment folds
          have closes : operator.priority ≤ frame.priority :=
            looser.trans_eq (minimum_of_pends (.cons first others))
          obtain ⟨around, closed, number⟩ := Grown.around sound first grown same yields closes joins
          have codes : Frame.stackCodes (frame :: frames) ++ expr.codes =
              Frame.stackCodes frames ++ (frame.around expr).codes := by
            cases frame <;> simp [Frame.stackCodes, Frame.codes, Frame.around, Expr.codes]
          rw [codes]
          exact inductionHypothesis others sound.tail around closed number run

end

/-! ## Turns -/

theorem exists_of_ofCode? {code : Code} {pending : Pending}
    (found : Pending.ofCode? code = some pending) :
    ∃ mark : Sign, mark.code = code ∧ (Frame.sign mark).Pends pending := by
  unfold Pending.ofCode? at found
  split_ifs at found with minus not
  · cases found
    exact ⟨.minus, minus.symm, rfl, rfl, rfl⟩
  · cases found
    exact ⟨.not, not.symm, rfl, rfl, rfl⟩

theorem exists_ofCode?_code (mark : Sign) :
    ∃ pending, Pending.ofCode? mark.code = some pending ∧ (Frame.sign mark).Pends pending := by
  cases mark
  · exact ⟨_, rfl, rfl, rfl, rfl⟩
  · exact ⟨_, rfl, rfl, rfl, rfl⟩

theorem plain_sign (mark : Sign) : mark.code.Plain := by
  cases mark <;> decide

theorem plain_operator (operator : Operator) : operator.code.Plain := by
  cases operator <;> decide

section
variable {H : Type} [Console H] {environment : Environment} {nested : Attempt (Desk H) Value}
  {calculator : BoundedStack Pending} {desk reached : Desk H} {rest : List Code} {turns : Nat}

omit [Console H] in
/-- The operator behind an operand is taken off the line, if there is one. -/
theorem recognizes_readOperator :
    Recognizes calculator Anything (readOperator : Attempt (Desk H) Operator) id
      fun line operator rest =>
        operator = Operator.ofCode (line.headD Code.newline) ∧
          if operator = .absent then rest = line else line = operator.code :: rest where
  sound := by
    intro desk reached operator ready run
    rw [readOperator, Attempt.bind_apply, ready.look_apply] at run
    dsimp only at run
    by_cases absent : Operator.ofCode (desk.scanner.line.headD Code.newline) = .absent
    · rw [if_neg (not_not.mpr absent)] at run
      cases run
      rw [id, if_pos absent]
      exact ⟨ready.look, rfl, ready.look_line⟩
    · rw [if_pos absent, Attempt.bind_apply, Desk.advance_apply] at run
      cases run
      have code := Operator.code_ofCode absent
      rw [id, if_neg absent, code]
      cases opens : desk.scanner.line with
      | nil =>
          rw [opens] at absent
          exact absurd rfl absent
      | cons first others =>
          rw [opens, List.headD_cons] at code
          have plain : first.Plain := code ▸ plain_operator _
          obtain ⟨ends, line⟩ := ready.look.advance (ready.look_line.trans opens) plain
          exact ⟨ends, rfl, congrArg (first :: ·) line.symm⟩
  complete := by
    rintro desk operator rest ready ⟨rfl, line⟩ _
    by_cases absent : Operator.ofCode (desk.scanner.line.headD Code.newline) = .absent
    · rw [if_pos absent] at line
      refine ⟨_, { desk with scanner := desk.scanner.look }, ?_, rfl,
        ready.look_line.trans line.symm⟩
      rw [readOperator, Attempt.bind_apply, ready.look_apply]
      dsimp only
      rw [if_neg (not_not.mpr absent)]
      rfl
    · rw [if_neg absent] at line
      obtain ⟨-, passed⟩ := ready.look.advance (ready.look_line.trans line)
        (plain_operator _)
      refine ⟨_, { desk with scanner := desk.scanner.look.advance }, ?_, rfl, passed⟩
      rw [readOperator, Attempt.bind_apply, ready.look_apply]
      dsimp only
      rw [if_pos absent, Attempt.bind_apply, Desk.advance_apply]
      rfl

/-- Goes on with an operand that an operator follows. -/
def resume (environment : Environment) (nested : Attempt (Desk H) Value) (turns : Nat)
    (operator : Operator) (value : Value) : Attempt (Desk H) Value := do
  let desk ← get
  match foldAll environment .check operator desk.calculator.items value with
  | .error fault => throw fault
  | .ok (.ended result below) =>
      set { desk with calculator := { desk.calculator with items := below } }
      return result
  | .ok (.waiting result stack) =>
      set { desk with calculator := { desk.calculator with items := stack } }
      Desk.push ⟨result, operator, operator.priority⟩
      operations environment .check nested turns

theorem operations_sign {pending : Pending} (ready : Ready calculator desk)
    (opens : Pending.ofCode? (desk.scanner.line.headD Code.newline) = some pending) :
    operations environment .check nested (turns + 1) desk =
      (do
        Desk.push pending
        operations environment .check nested turns)
      { desk with scanner := desk.scanner.look.advance } := by
  rw [operations, Attempt.bind_apply, ready.look_apply]
  dsimp only
  rw [opens]
  rfl

theorem operations_operand (ready : Ready calculator desk)
    (opens : Pending.ofCode? (desk.scanner.line.headD Code.newline) = none) :
    operations environment .check nested (turns + 1) desk =
      (do
        let value ← operandHere environment nested
        let operator ← readOperator
        resume environment nested turns operator value)
      { desk with scanner := desk.scanner.look } := by
  have here : operandHere environment nested { desk with scanner := desk.scanner.look } =
      operand environment .check nested (desk.scanner.line.headD Code.newline)
        { desk with scanner := desk.scanner.look } := by
    change operand environment .check nested desk.scanner.look.current _ = _
    rw [Scanner.current_eq_headD, ready.look_line]
  rw [operations, Attempt.bind_apply, ready.look_apply]
  dsimp only
  rw [opens]
  dsimp only
  rw [Attempt.bind_apply, Attempt.bind_apply, here]
  rfl

/-! ## What is recognized is an expression -/

/-- The levels and the room that are left in an evaluation. -/
abbrev FitsWithin (environment : Environment) (levels : Nat) (calculator : BoundedStack Pending) :
    Expr → Prop :=
  Expr.Fits environment.config.word levels (calculator.capacity - calculator.length)

/-- An evaluation inside of so many levels recognizes the expressions that there is room for. -/
abbrev Evaluates (environment : Environment) (levels : Nat) (nested : Attempt (Desk H) Value) :
    Prop :=
  ∀ calculator, Recognizes calculator Ends nested Value.isText
    (Spells (FitsWithin environment levels calculator))

/-- The stack of an evaluation, with operations pending in it. -/
def stacked (base : BoundedStack Pending) (above : List Pending) : BoundedStack Pending :=
  { base with items := above ++ Pending.sentinel :: base.items }

theorem length_stacked (base : BoundedStack Pending) (above : List Pending) :
    (stacked base above).length = above.length + (base.length + 1) := by
  simp [stacked, BoundedStack.length]

/-- The operations pending in an evaluation, and the frames that they are what is left of. -/
structure Pushed (environment : Environment) (levels : Nat) (base : BoundedStack Pending)
    (frames : List Frame) (above : List Pending) : Prop where
  pends : List.Forall₂ Frame.Pends frames above
  sound : Sound environment.config.word levels (base.capacity - base.length) frames
  inside : frames.length < base.capacity - base.length

variable {levels : Nat} {base : BoundedStack Pending} {frames : List Frame}
  {above : List Pending} {value : Value} {pending : Pending}

omit [Console H] in
theorem Ready.push (ready : Ready calculator desk) (pending : Pending) :
    Ready { calculator with items := pending :: calculator.items }
      { desk with calculator := { calculator with items := pending :: calculator.items } } :=
  ⟨ready.compact, rfl⟩

omit [Console H] in
theorem Ready.push_eq_ok_iff (ready : Ready calculator desk) :
    Desk.push pending desk = (.ok (), reached) ↔ calculator.length < calculator.capacity ∧
      reached =
        { desk with calculator := { calculator with items := pending :: calculator.items } } := by
  rw [Desk.push_apply, ready.calculator]
  cases push : calculator.push pending with
  | error fault =>
      refine iff_of_false (by rintro ⟨⟩) fun ⟨room, _⟩ => ?_
      cases push.symm.trans (BoundedStack.push_eq_ok_iff.mpr ⟨room, rfl⟩)
  | ok calculator =>
      obtain ⟨room, rfl⟩ := BoundedStack.push_eq_ok_iff.mp push
      exact ⟨fun same => ⟨room, (Prod.mk.inj same).2.symm⟩, fun same => by rw [same.2]⟩

omit [Console H] in
/-- What is pushed is a frame on top of the others, if there was room for it. -/
theorem Pushed.push {frame : Frame} (pushed : Pushed environment levels base frames above)
    (pends : frame.Pends pending)
    (sound : Sound environment.config.word levels (base.capacity - base.length)
      (frame :: frames))
    (ready : Ready (stacked base above) desk) {between : Desk H}
    (run : Desk.push pending desk = (.ok (), between)) :
    Pushed environment levels base (frame :: frames) (pending :: above) ∧
      Ready (stacked base (pending :: above)) between ∧
      between.scanner.line = desk.scanner.line := by
  obtain ⟨room, rfl⟩ := ready.push_eq_ok_iff.mp run
  rw [length_stacked] at room
  refine ⟨⟨.cons pends pushed.pends, sound, ?_⟩, ready.push pending, rfl⟩
  have same := pushed.pends.length_eq
  have capacity : (stacked base above).capacity = base.capacity := rfl
  rw [List.length_cons]
  omega

/-- What so many turns read behind pending frames closes the frames around an expression. -/
def Closes (environment : Environment) (levels : Nat) (nested : Attempt (Desk H) Value)
    (base : BoundedStack Pending) (turns : Nat) : Prop :=
  ∀ {frames : List Frame} {above : List Pending} {desk reached : Desk H} {value : Value},
    Pushed environment levels base frames above → Ready (stacked base above) desk →
    operations environment .check nested turns desk = (.ok value, reached) →
    Ready base reached ∧ ∃ expr, FitsWithin environment (levels + 1) base expr ∧
      expr.isText = value.isText ∧
      Frame.stackCodes frames ++ desk.scanner.line = expr.codes ++ reached.scanner.line

/-- A sign waits for its operand as a frame of its own. -/
theorem Closes.sign (closes : Closes environment levels nested base turns)
    (pushed : Pushed environment levels base frames above)
    (ready : Ready (stacked base above) desk)
    (opens : Pending.ofCode? (desk.scanner.line.headD Code.newline) = some pending)
    (run : operations environment .check nested (turns + 1) desk = (.ok value, reached)) :
    Ready base reached ∧ ∃ expr, FitsWithin environment (levels + 1) base expr ∧
      expr.isText = value.isText ∧
      Frame.stackCodes frames ++ desk.scanner.line = expr.codes ++ reached.scanner.line := by
  obtain ⟨mark, code, pends⟩ := exists_of_ofCode? opens
  rw [operations_sign ready opens] at run
  obtain ⟨_, between, push, onward⟩ := Attempt.exists_of_bind_eq_ok run
  obtain ⟨rest, line⟩ : ∃ rest, desk.scanner.line = mark.code :: rest := by
    cases line : desk.scanner.line with
    | nil =>
        rw [line] at opens
        cases opens
    | cons first rest =>
        rw [line, List.headD_cons] at code
        exact ⟨rest, by rw [code]⟩
  obtain ⟨passed, left⟩ := ready.look.advance (ready.look_line.trans line) (plain_sign mark)
  have waiting : (Frame.sign mark).Pends pending := pends
  obtain ⟨further, before, same⟩ := pushed.push waiting pushed.sound passed push
  obtain ⟨ends, expr, fits, type, codes⟩ := closes further before onward
  refine ⟨ends, expr, fits, type, ?_⟩
  rw [line, ← codes, same, left]
  simp [Frame.stackCodes, Frame.codes]

/-- An operator that does not end the expression waits for its right side, behind the frames that
are left of those in front of it. -/
theorem Closes.resume (closes : Closes environment levels nested base turns)
    (pushed : Pushed environment levels base frames above)
    (ready : Ready (stacked base above) desk) {operator : Operator} {first : Expr} {found : Value}
    (grown : Grown environment.config.word levels (base.capacity - base.length) frames first)
    (yields : first.Yields operator.priority) (type : first.isText = found.isText)
    (line : if operator = .absent then desk.scanner.line = rest
      else rest = operator.code :: desk.scanner.line)
    (run : resume environment nested turns operator found desk = (.ok value, reached)) :
    Ready base reached ∧ ∃ expr, FitsWithin environment (levels + 1) base expr ∧
      expr.isText = value.isText ∧
      Frame.stackCodes frames ++ (first.codes ++ rest) = expr.codes ++ reached.scanner.line := by
  obtain ⟨compact, calculator⟩ := ready
  rw [Grammar.resume, Attempt.bind_apply, Attempt.get_apply] at run
  dsimp only at run
  rw [calculator] at run
  dsimp only [stacked] at run
  cases folds : foldAll environment .check operator (above ++ Pending.sentinel :: base.items)
      found with
  | error fault =>
      rw [folds] at run
      cases run
  | ok folded =>
      rw [folds] at run
      have folding := Climbing.folding_foldAll environment .check base.items operator
        (ne_absent_of_pends pushed.pends pushed.sound) found
      have comes := comes_of_folding environment folding pushed.pends pushed.sound grown yields
        type folds
      rw [← List.append_assoc]
      generalize Frame.stackCodes frames ++ first.codes = codes at comes ⊢
      cases comes with
      | @ended result expr absent fits same spelled =>
          cases run
          rw [if_pos absent] at line
          exact ⟨⟨compact, rfl⟩, expr, fits.fits, same, by rw [spelled, ← line]⟩
      | @waiting result expr others stack present pends sound same spelled =>
          rw [if_neg present] at line
          dsimp only at run
          rw [Attempt.bind_apply, Attempt.set_apply] at run
          obtain ⟨_, between, push, onward⟩ := Attempt.exists_of_bind_eq_ok run
          have before : Ready (stacked base stack)
              { desk with calculator := stacked base stack } := ⟨compact, rfl⟩
          have sooner : Pushed environment levels base others stack :=
            ⟨pends, sound.tail, by have := sound.1.pending; omega⟩
          have waiting : (Frame.left expr operator).Pends
              ⟨result, operator, operator.priority⟩ := ⟨rfl, rfl, same.symm⟩
          obtain ⟨further, awaiting, alike⟩ := sooner.push waiting sound before push
          obtain ⟨ends, whole, fits, kind, codes⟩ := closes further awaiting onward
          refine ⟨ends, whole, fits, kind, ?_⟩
          rw [← codes, alike, line, spelled]
          simp [Frame.stackCodes, Frame.codes]

/-- An operand is read together with the operator behind it. -/
theorem Closes.operand (closes : Closes environment levels nested base turns)
    (nests : Evaluates environment levels nested)
    (pushed : Pushed environment levels base frames above)
    (ready : Ready (stacked base above) desk)
    (opens : Pending.ofCode? (desk.scanner.line.headD Code.newline) = none)
    (run : operations environment .check nested (turns + 1) desk = (.ok value, reached)) :
    Ready base reached ∧ ∃ expr, FitsWithin environment (levels + 1) base expr ∧
      expr.isText = value.isText ∧
      Frame.stackCodes frames ++ desk.scanner.line = expr.codes ++ reached.scanner.line := by
  rw [operations_operand ready opens] at run
  obtain ⟨found, middle, read, run⟩ := Attempt.exists_of_bind_eq_ok run
  obtain ⟨operator, later, ends, onward⟩ := Attempt.exists_of_bind_eq_ok run
  have room : (stacked base above).capacity - (stacked base above).length =
      base.capacity - base.length - (frames.length + 1) := by
    rw [length_stacked, pushed.pends.length_eq]
    simp only [stacked]
    omega
  obtain ⟨halfway, first, primary, type, line⟩ :=
    (recognizes_operand environment (nests (stacked base above))).sound ready.look read
  rw [ready.look_line] at line
  rw [FitsWithin, room] at primary
  obtain ⟨past, -, behind⟩ := recognizes_readOperator.sound halfway ends
  rw [line]
  exact closes.resume pushed past (grown_of_primary primary pushed.inside)
    (yields_of_primary primary _) type behind onward

theorem closes_operations (nests : Evaluates environment levels nested) :
    Closes environment levels nested base turns := by
  -- The frames may grow or shrink from turn to turn; the hypothesis is about any of them.
  induction turns with
  | zero =>
      rintro frames above desk reached value - - ⟨⟩
  | succ turns inductionHypothesis =>
      intro frames above desk reached value pushed ready run
      cases opens : Pending.ofCode? (desk.scanner.line.headD Code.newline) with
      | some pending => exact inductionHypothesis.sign pushed ready opens run
      | none => exact inductionHypothesis.operand nests pushed ready opens run

/-! ## Expressions are recognized -/

/-- What is left behind the operator at the front, if there is one. -/
def afterOperator (rest : List Code) : List Code :=
  if Operator.ofCode (rest.headD Code.newline) = .absent then rest else rest.tail

theorem length_afterOperator_le (rest : List Code) :
    (afterOperator rest).length ≤ rest.length := by
  unfold afterOperator
  split
  · exact Nat.le_refl _
  · rw [List.length_tail]
    exact Nat.sub_le _ _

theorem afterOperator_code {operator : Operator} (present : operator ≠ .absent)
    (rest : List Code) : afterOperator (operator.code :: rest) = rest := by
  rw [afterOperator, List.headD_cons, Operator.ofCode_code, if_neg present, List.tail_cons]

/-- An operator that binds tighter than what is pending waits for its right side. -/
theorem resume_of_lt {operator : Operator} (ready : Ready calculator desk)
    (tighter : minimum calculator.items < operator.priority)
    (room : calculator.length < calculator.capacity) (value : Value) :
    resume environment nested turns operator value desk =
      operations environment .check nested turns
        { desk with calculator :=
            { calculator with
              items := ⟨value, operator, operator.priority⟩ :: calculator.items } } := by
  have pushes := ready.push_eq_ok_iff.mpr
    ⟨room, show _ = { desk with calculator := { calculator with
      items := ⟨value, operator, operator.priority⟩ :: calculator.items } } from rfl⟩
  obtain ⟨-, rfl⟩ := ready
  rw [resume, Attempt.bind_apply, Attempt.get_apply]
  dsimp only
  rw [foldAll_of_lt environment .check tighter]
  dsimp only
  rw [Attempt.bind_apply, Attempt.set_apply]
  dsimp only
  rw [Attempt.bind_apply, pushes]

/-- An operator that binds no tighter than what is pending lets it take its right side. -/
theorem resume_of_le {operator : Operator} {pending : Pending} {result : Value} {final : Desk H}
    (ready : Ready { calculator with items := pending :: calculator.items } desk)
    (looser : operator.priority ≤ pending.priority) (present : pending.operator ≠ .absent)
    (joins : pending.operator.Joins pending.value.isText value.isText)
    (run : resume environment nested turns operator (.number 0)
      { desk with calculator := calculator } = (.ok result, final)) :
    resume environment nested turns operator value desk = (.ok result, final) := by
  have folds : foldAll environment .check operator (pending :: calculator.items) value =
      foldAll environment .check operator calculator.items (.number 0) := by
    rw [foldAll, if_neg (Nat.not_lt.mpr looser), if_neg present, fold_of_joins environment joins]
  rw [resume, Attempt.bind_apply, Attempt.get_apply] at run ⊢
  dsimp only at run ⊢
  rw [ready.calculator]
  dsimp only
  rw [folds]
  cases comes : foldAll environment .check operator calculator.items (.number 0) with
  | error fault =>
      rw [comes] at run
      cases run
  | ok folded =>
      rw [comes] at run
      cases folded <;> exact run

/-- The evaluation of an expression comes to the operator behind it. -/
def Arrives (environment : Environment) (nested : Attempt (Desk H) Value) (turns : Nat)
    (calculator : BoundedStack Pending) (desk : Desk H) (isText : Bool) (rest : List Code) : Prop :=
  ∃ value fewer reached, Ready calculator reached ∧ value.isText = isText ∧
    reached.scanner.line = afterOperator rest ∧ reached.scanner.line.length < fewer ∧
    ∀ result final,
      resume environment nested fewer (Operator.ofCode (rest.headD Code.newline)) value reached =
        (.ok result, final) →
      operations environment .check nested turns desk = (.ok result, final)

theorem arrives_of_primary {expr : Expr} (nests : Evaluates environment levels nested)
    (primary : expr.Primary environment.config.word (FitsWithin environment levels calculator))
    (ready : Ready calculator desk) (line : desk.scanner.line = expr.codes ++ rest)
    (stops : Stops rest) (enough : desk.scanner.line.length < turns) :
    Arrives environment nested turns calculator desk expr.isText rest := by
  obtain ⟨code, others, opens, starts⟩ := exists_cons_of_primary primary
  obtain ⟨fewer, rfl⟩ : ∃ fewer, turns = fewer + 1 := ⟨turns - 1, by omega⟩
  have looked := ready.look_line.trans line
  obtain ⟨value, middle, read, type, left⟩ := (recognizes_operand environment
    (nests calculator)).complete ready.look ⟨expr, primary, rfl, looked⟩ stops
  obtain ⟨halfway, -⟩ := (recognizes_operand environment (nests calculator)).sound ready.look read
  have behind : Operator.ofCode (rest.headD Code.newline) =
        Operator.ofCode (middle.scanner.line.headD Code.newline) ∧
      if Operator.ofCode (rest.headD Code.newline) = .absent then
        afterOperator rest = middle.scanner.line
      else middle.scanner.line =
        (Operator.ofCode (rest.headD Code.newline)).code :: afterOperator rest := by
    refine ⟨by rw [left], ?_⟩
    unfold afterOperator
    split
    next => exact left.symm
    next present =>
      rw [left, Operator.code_ofCode present]
      cases rest with
      | nil => exact absurd rfl present
      | cons first rest => rfl
  obtain ⟨operator, reached, ends, rfl, past⟩ :=
    recognizes_readOperator.complete halfway behind trivial
  obtain ⟨after, -⟩ := recognizes_readOperator.sound halfway ends
  refine ⟨value, fewer, reached, after, type, past, ?_, fun result final run => ?_⟩
  · have shorter := length_afterOperator_le rest
    rw [line, opens, List.length_append, List.length_cons] at enough
    rw [past]
    omega
  · rw [operations_operand ready (by rw [line, opens]; exact starts.noSign),
      Attempt.bind_apply, read]
    dsimp only
    rw [Attempt.bind_apply, ends]
    exact run

/-- An expression is recognized up to the operator behind it, whatever is pending in front. -/
def Reaches (environment : Environment) (levels : Nat) (nested : Attempt (Desk H) Value)
    (expr : Expr) : Prop :=
  ∀ {calculator : BoundedStack Pending} {desk : Desk H} {rest : List Code} {turns : Nat},
    Ready calculator desk → desk.scanner.line = expr.codes ++ rest → Stops rest →
    expr.Tight (minimum calculator.items) →
    expr.Yields (Operator.ofCode (rest.headD Code.newline)).priority → expr.height ≤ levels →
    calculator.length + expr.pending ≤ calculator.capacity →
    desk.scanner.line.length < turns →
    Arrives environment nested turns calculator desk expr.isText rest

theorem reaches_primary {expr : Expr} (nests : Evaluates environment levels nested)
    (primary : ∀ calculator : BoundedStack Pending, expr.height ≤ levels →
      calculator.length + expr.pending ≤ calculator.capacity →
      expr.Primary environment.config.word (FitsWithin environment levels calculator)) :
    Reaches environment levels nested expr :=
  fun ready line stops _ _ height room enough =>
    arrives_of_primary nests (primary _ height room) ready line stops enough

/-- The sign is pushed, and takes its operand as soon as the operator behind it is read. -/
theorem Reaches.signed {mark : Sign} {operand : Expr}
    (reaches : Reaches environment levels nested operand) (number : operand.isText = false)
    (tighter : operand.Tight mark.priority) :
    Reaches environment levels nested (.signed mark operand) := by
  intro calculator desk rest turns ready line stops _ yields height room enough
  obtain ⟨pending, opens, pends⟩ := exists_ofCode?_code mark
  obtain ⟨fewer, rfl⟩ : ∃ fewer, turns = fewer + 1 := ⟨turns - 1, by omega⟩
  have front : desk.scanner.line = mark.code :: (operand.codes ++ rest) := line
  obtain ⟨passed, left⟩ := ready.look.advance (ready.look_line.trans front) (plain_sign mark)
  simp only [Expr.pending] at room
  have tight : operand.Tight pending.priority := pends.2.1 ▸ tighter
  have shorter : desk.scanner.look.advance.line.length < fewer := by
    rw [front, List.length_cons] at enough
    rw [left]
    omega
  obtain ⟨value, less, reached, after, type, behind, enough, runs⟩ :=
    reaches (passed.push pending) left stops tight yields.2 height (by
      change calculator.length + 1 + operand.pending ≤ calculator.capacity
      omega) shorter
  refine ⟨.number 0, less, { reached with calculator := calculator }, ⟨after.compact, rfl⟩, rfl,
    behind, enough, fun result final run => ?_⟩
  have joins : pending.operator.Joins pending.value.isText value.isText := by
    rw [pends.2.2, type, number, pends.1]
    exact ⟨rfl, fun text => by cases text⟩
  have present : pending.operator ≠ .absent := by
    rw [pends.1]
    exact Operator.noConfusion
  rw [operations_sign ready (by rw [front]; exact opens), Attempt.bind_apply,
    passed.push_eq_ok_iff.mpr ⟨by omega, rfl⟩]
  exact runs result final (resume_of_le after (pends.2.1 ▸ yields.1) present joins run)

/-- The left side is pushed with its operator, and takes the right side as soon as the operator
behind that is read. -/
theorem Reaches.binary {left right : Expr} {operator : Operator}
    (first : Reaches environment levels nested left)
    (second : Reaches environment levels nested right) (present : operator ≠ .absent)
    (together : operator.Joins left.isText right.isText) (closed : left.Yields operator.priority)
    (tighter : right.Tight operator.priority) :
    Reaches environment levels nested (.binary left operator right) := by
  intro calculator desk rest turns ready line stops tight yields height room enough
  have front : desk.scanner.line = left.codes ++ operator.code :: (right.codes ++ rest) := by
    rw [line]
    simp [Expr.codes]
  have ahead : Operator.ofCode ((operator.code :: (right.codes ++ rest)).headD Code.newline) =
      operator := Operator.ofCode_code operator
  obtain ⟨heightLeft, heightRight⟩ := Nat.max_le.mp height
  have most : (Expr.binary left operator right).pending =
      max left.pending (right.pending + 1) := rfl
  obtain ⟨value, fewer, middle, halfway, type, behind, enough, runs⟩ :=
    first ready front (stops_code operator _) tight.2 (by rw [ahead]; exact closed) heightLeft
      (by omega) enough
  rw [afterOperator_code present] at behind
  rw [ahead] at runs
  obtain ⟨other, less, reached, after, kind, beyond, suffice, onward⟩ :=
    second (halfway.push ⟨value, operator, operator.priority⟩) behind stops tighter yields.2
      heightRight (by
        change calculator.length + 1 + right.pending ≤ calculator.capacity
        omega) enough
  refine ⟨.number 0, less, { reached with calculator := calculator }, ⟨after.compact, rfl⟩, rfl,
    beyond, suffice, fun result final run => ?_⟩
  have joins : operator.Joins value.isText other.isText := by
    rw [type, kind]
    exact together
  apply runs
  rw [resume_of_lt halfway tight.1 (by omega)]
  exact onward result final (resume_of_le after yields.1 present joins run)

theorem reaches_of_wellFormed {expr : Expr} (nests : Evaluates environment levels nested)
    (wellFormed : expr.WellFormed environment.config.word) :
    Reaches environment levels nested expr := by
  induction wellFormed with
  | atom valid => exact reaches_primary nests fun _ _ _ => .atom valid
  | @enclosed opening inner valid takes wellFormed _ =>
      refine reaches_primary nests fun calculator height room => .enclosed valid takes ?_
      refine ⟨wellFormed, height, ?_⟩
      simp only [Expr.pending] at room
      omega
  | signed number tighter _ inductionHypothesis => exact inductionHypothesis.signed number tighter
  | binary present together closed tighter _ _ first second =>
      exact first.binary second present together closed tighter

omit [Console H] in
theorem restoring_eq_ok_iff {α : Type} {step : Attempt (Desk H) α} {value : α} :
    Desk.restoring step desk = (.ok value, reached) ↔ step desk = (.ok value, reached) := by
  unfold Desk.restoring
  rcases step desk with ⟨fault | found, later⟩
  · constructor <;> rintro ⟨⟩
  · exact Iff.rfl

theorem recognizes_levels (nests : Evaluates environment levels nested)
    (calculator : BoundedStack Pending) :
    Recognizes calculator Ends
      (Desk.restoring do
        Desk.push .sentinel
        let desk ← get
        operations environment .check nested (desk.scanner.rest.length + 1))
      Value.isText (Spells (FitsWithin environment (levels + 1) calculator)) where
  sound := by
    intro desk reached value ready run
    obtain ⟨_, between, push, onward⟩ :=
      Attempt.exists_of_bind_eq_ok (restoring_eq_ok_iff.mp run)
    obtain ⟨room, rfl⟩ := ready.push_eq_ok_iff.mp push
    have before : Pushed environment levels calculator [] [] :=
      ⟨.nil, trivial, Nat.sub_pos_of_lt room⟩
    rw [Attempt.bind_apply, Attempt.get_apply] at onward
    have comes := closes_operations nests before (ready.push .sentinel) onward
    exact comes
  complete := by
    rintro desk isText rest ready ⟨expr, fits, rfl, line⟩ ends
    have room := fits.pending
    have short : desk.scanner.line.length < desk.scanner.rest.length + 1 :=
      Nat.lt_succ_of_le (Scanner.codesLeft_le_length desk.scanner)
    obtain ⟨value, fewer, reached, after, type, behind, -, runs⟩ :=
      reaches_of_wellFormed nests fits.wellFormed (ready.push .sentinel) line ends.toStops
        (tight_zero _ fits.wellFormed) (by rw [ends.noOperator]; exact yields_zero expr)
        (Nat.le_of_lt_succ fits.height) (by
          change calculator.length + 1 + expr.pending ≤ calculator.capacity
          omega) short
    rw [ends.noOperator] at runs
    rw [afterOperator, if_pos ends.noOperator] at behind
    refine ⟨value, { reached with calculator := calculator }, restoring_eq_ok_iff.mpr ?_, type,
      behind⟩
    rw [Attempt.bind_apply, ready.push_eq_ok_iff.mpr ⟨by omega, rfl⟩]
    refine runs value _ ?_
    rw [resume, Attempt.bind_apply, Attempt.get_apply]
    dsimp only
    rw [after.calculator]
    rfl

variable (environment levels) in
/--
An evaluation ends well exactly on the lines that open with an expression of the language
which there are levels and room enough for, and takes it off the line.
-/
theorem recognizes_evaluateWithin :
    Evaluates environment levels
      (evaluateWithin environment .check levels : Attempt (Desk H) Value) := by
  induction levels with
  | zero =>
      intro calculator
      refine (Recognizes.throw _ _).of_iff fun line isText rest => ?_
      simp only [Spells, false_iff, not_exists, not_and]
      intro expr fits
      exact absurd fits.height (Nat.not_lt_zero _)
  | succ levels inductionHypothesis => exact recognizes_levels inductionHypothesis

end

end Grammar
end HomeBasic
