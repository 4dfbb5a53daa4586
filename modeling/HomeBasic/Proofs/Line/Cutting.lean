import HomeBasic.EditLine
import HomeBasic.Proofs.Checked

/-!
# Bounds of crunching

A line is crunched from place to place of its text: a word is cut out of what is left, with a
look at the code before it and at the code behind it. No place is behind the end of the text,
and a code stands before every place behind the start of the statement.

Main statement: `checkedCrunch_eq`.
-/

namespace HomeBasic

open Checked

namespace Crunch

variable {text : List Code} {start position : Nat} {code : Code}

/-! ## With everything checked -/

/-- The word at a place: all letters that stand together, with no dot behind them. -/
def checkedWordAt (text : List Code) (position : Nat) : Option (Option (Token × Nat)) := do
  let left ← slice? text position text.length
  let length := (left.takeWhile Code.isLetter).length
  if text[position + length]? = some Code.dot then
    return none
  let letters ← slice? text position (position + length)
  return (Token.ofCodes? letters).map fun token => (token, length)

/-- The token at a place. No word follows a name code of the statement. -/
def checkedTokenAt (text : List Code) (start position : Nat) : Option (Option (Token × Nat)) :=
  match (slice? text position (position + 2)).bind symbolAt? with
  | some symbol => some (some (.keyword symbol, 2))
  | none => do
      let code ← text[position]?
      if !code.isLetter then
        return none
      if start < position then
        let before ← text[← difference? position 1]?
        if before.isNameCode then
          return none
      checkedWordAt text position

/-- Crunches the statement that starts at a place, from a further place on. -/
def checkedBody (text : List Code) (start : Nat) :
    (steps position : Nat) → Reading → Option (List (Code × Nat))
  | 0, _, _ => some [(Code.newline, text.length)]
  | steps + 1, position, reading =>
      if text.length ≤ position then
        some [(Code.newline, text.length)]
      else do
        let code ← text[position]?
        match reading with
        | .remark =>
            return (code, position) :: (← checkedBody text start steps (position + 1) .remark)
        | .remarkGap =>
            if code = Code.space then
              checkedBody text start steps (position + 1) .remarkGap
            else
              return (code, position) :: (← checkedBody text start steps (position + 1) .remark)
        | .string =>
            let reading := if code = Code.quote then .statement false else .string
            return (code, position) :: (← checkedBody text start steps (position + 1) reading)
        | .statement atStart =>
            if code = Code.space then
              checkedBody text start steps (position + 1) (.statement atStart)
            else if code = Code.quote then
              return (code, position) :: (← checkedBody text start steps (position + 1) .string)
            else if atStart ∧ code = Code.question then
              return (StatementWord.print.code, position) ::
                (← checkedBody text start steps (position + 1) (.statement false))
            else
              match ← checkedTokenAt text start position with
              | some (token, length) =>
                  return (token.code, position) ::
                    (← checkedBody text start steps (position + length) (.after token))
              | none =>
                  return (code, position) ::
                    (← checkedBody text start steps (position + 1) (.statement false))

/-- Crunches a line from a place on, which is before its statement. -/
def checkedLine (text : List Code) : (steps position : Nat) → Option (List (Code × Nat))
  | 0, _ => some [(Code.newline, text.length)]
  | steps + 1, position =>
      if text.length ≤ position then
        some [(Code.newline, text.length)]
      else do
        let code ← text[position]?
        if code = Code.space then
          checkedLine text steps (position + 1)
        else if code.isDigit then
          return (code, position) :: (← checkedLine text steps (position + 1))
        else
          checkedBody text position (steps + 1) position (.statement true)

/-! ## Tokens -/

/-- A code of the statement stands before a place, and it is one of a name. -/
def nameBefore (text : List Code) (start position : Nat) : Bool :=
  start < position && text[position - 1]?.any Code.isNameCode

theorem nameBefore_start : nameBefore text start start = false := by
  simp [nameBefore]

theorem nameBefore_succ (here : text[position]? = some code) (behind : start ≤ position) :
    nameBefore text start (position + 1) = code.isNameCode := by
  simp [nameBefore, here, Nat.lt_succ_of_le behind]

theorem symbolAt?_slice (text : List Code) (position : Nat) :
    (slice? text position (position + 2)).bind symbolAt? = symbolAt? (text.drop position) := by
  by_cases room : position + 2 ≤ text.length
  · rw [slice?_eq (Nat.le_add_right _ _) room, List.drop_take, Nat.add_sub_cancel_left]
    rcases text.drop position with _ | ⟨first, _ | ⟨second, rest⟩⟩ <;> rfl
  · rw [slice?, if_neg fun inside => room inside.2]
    have short := List.length_drop (i := position) (l := text)
    rcases left : text.drop position with _ | ⟨first, _ | ⟨second, rest⟩⟩
    · rfl
    · rfl
    · rw [left, List.length_cons, List.length_cons] at short
      omega

theorem checkedWordAt_eq (inside : position ≤ text.length)
    (letter : ((text.drop position).takeWhile Code.isLetter).isEmpty = false) :
    checkedWordAt text position = some (wordAt? (text.drop position)) := by
  have within := (List.takeWhile_sublist Code.isLetter (l := text.drop position)).length_le
  have cut := List.prefix_iff_eq_take.mp
    (List.takeWhile_prefix Code.isLetter (l := text.drop position))
  unfold checkedWordAt wordAt?
  rw [slice?_eq inside (Nat.le_refl _), List.take_length]
  dsimp only [Option.bind_eq_bind, Option.bind_some]
  generalize (text.drop position).takeWhile Code.isLetter = letters at letter within cut ⊢
  rw [List.length_drop] at within
  rw [letter, Bool.false_or, List.head?_drop, List.getElem?_drop]
  by_cases dot : text[position + letters.length]? = some Code.dot
  · rw [if_pos dot, dot]
    rfl
  · rw [if_neg dot, if_neg (by simpa using dot), slice?_eq (Nat.le_add_right _ _) (by omega),
      List.drop_take, Nat.add_sub_cancel_left, ← cut]
    rfl

theorem exists_code (inside : position < text.length) :
    ∃ code, text[position]? = some code ∧
      text.drop position = code :: text.drop (position + 1) :=
  ⟨_, List.getElem?_eq_getElem inside, List.drop_eq_getElem_cons inside⟩

theorem wordAt?_of_not_isLetter {code : Code} {rest : List Code} (other : code.isLetter = false) :
    wordAt? (code :: rest) = none := by
  simp [wordAt?, other]

/-- A token is cut out of the text, with no look at what stands before the statement. -/
theorem checkedTokenAt_eq (start : Nat) (inside : position < text.length) :
    checkedTokenAt text start position =
      some (tokenAt? (nameBefore text start position) (text.drop position)) := by
  rw [checkedTokenAt, symbolAt?_slice, tokenAt?]
  cases symbolAt? (text.drop position) with
  | some symbol => rfl
  | none =>
      obtain ⟨code, here, left⟩ := exists_code inside
      dsimp only
      rw [here, Option.bind_eq_bind, Option.bind_some]
      cases letter : code.isLetter with
      | false =>
          rw [left, wordAt?_of_not_isLetter letter, ite_self]
          rfl
      | true =>
          have word : checkedWordAt text position = some (wordAt? (text.drop position)) :=
            checkedWordAt_eq (Nat.le_of_lt inside) (by rw [left]; simp [letter])
          by_cases behind : start < position
          · obtain ⟨before, there, -⟩ := exists_code (show position - 1 < text.length by omega)
            have name : nameBefore text start position = before.isNameCode := by
              simp [nameBefore, behind, there]
            have first : difference? position 1 = some (position - 1) :=
              difference?_eq (by omega)
            rw [name]
            simp only [Bool.not_true, Bool.false_eq_true, if_false, if_pos behind, first,
              Option.bind_eq_bind, Option.bind_some, there]
            cases before.isNameCode with
            | true => rfl
            | false => exact word
          · have name : nameBefore text start position = false := by
              simp [nameBefore, behind]
            rw [name]
            simp only [Bool.not_true, Bool.false_eq_true, if_false, if_neg behind]
            exact word

/-- A token takes a code at least, and no more than there are. -/
theorem length_of_tokenAt? {afterName : Bool} {token : Token} {length : Nat}
    (read : tokenAt? afterName text = some (token, length)) :
    1 ≤ length ∧ length ≤ text.length := by
  unfold tokenAt? at read
  split at read
  next symbol found =>
    cases read
    rcases text with _ | ⟨first, _ | ⟨second, rest⟩⟩
    · cases found
    · cases found
    · exact ⟨by decide, Nat.le_add_left 2 rest.length⟩
  next =>
    split at read
    · cases read
    · unfold wordAt? at read
      dsimp only at read
      split at read
      · cases read
      next some =>
        obtain ⟨word, _, same⟩ := Option.map_eq_some_iff.mp read
        cases same
        simp only [Bool.or_eq_true, not_or, List.isEmpty_iff] at some
        exact ⟨List.length_pos_iff.mpr some.1, (List.takeWhile_sublist _).length_le⟩

/-! ## From place to place -/

/-- Codes that belong to a token are passed over one after the other. -/
theorem body_skip (skip : Nat) (here : text[position]? = some code) (behind : start ≤ position)
    (inside : position + 1 + skip ≤ text.length) (reading : Reading) :
    body (text.drop (position + 1)) (position + 1) skip code.isNameCode reading =
      body (text.drop (position + 1 + skip)) (position + 1 + skip) 0
        (nameBefore text start (position + 1 + skip)) reading := by
  induction skip generalizing position code with
  | zero => rw [Nat.add_zero, nameBefore_succ here behind]
  | succ skip inductionHypothesis =>
      obtain ⟨next, there, left⟩ := exists_code (show position + 1 < text.length by omega)
      have onward : position + 1 + (skip + 1) = position + 1 + 1 + skip := by omega
      rw [left, body, onward]
      exact inductionHypothesis there (by omega) (by omega)

theorem checkedBody_eq (steps : Nat) (behind : start ≤ position)
    (inside : position ≤ text.length) (enough : text.length ≤ position + steps)
    (reading : Reading) :
    checkedBody text start steps position reading =
      some (body (text.drop position) position 0 (nameBefore text start position) reading) := by
  induction steps generalizing position reading with
  | zero =>
      obtain rfl : position = text.length := by omega
      rw [List.drop_length]
      rfl
  | succ steps inductionHypothesis =>
      rw [checkedBody]
      split
      next ended =>
        obtain rfl : position = text.length := by omega
        rw [List.drop_length]
        rfl
      next more =>
        obtain ⟨code, here, left⟩ := exists_code (Nat.lt_of_not_le more)
        have onward (reading : Reading) :
            checkedBody text start steps (position + 1) reading =
              some (body (text.drop (position + 1)) (position + 1) 0 code.isNameCode reading) := by
          rw [inductionHypothesis (by omega) (by omega) (by omega), nameBefore_succ here behind]
        have token := checkedTokenAt_eq start (Nat.lt_of_not_le more)
        rw [left] at token ⊢
        rw [here]
        simp only [body, Option.bind_eq_bind, Option.bind_some, onward, token]
        cases reading with
        | remark | string => rfl
        | remarkGap => dsimp only; split <;> rfl
        | statement atStart =>
            dsimp only
            split
            · rfl
            · split
              · rfl
              · split
                · rfl
                · rcases read : tokenAt? (nameBefore text start position)
                    (code :: text.drop (position + 1)) with _ | ⟨token, length⟩
                  · rfl
                  · obtain ⟨some, fits⟩ := length_of_tokenAt? read
                    rw [← left, List.length_drop] at fits
                    have passed := body_skip (length - 1) here behind (by omega) (.after token)
                    have place : position + 1 + (length - 1) = position + length := by omega
                    rw [place] at passed
                    dsimp only
                    rw [inductionHypothesis (by omega) (by omega) (by omega), passed]
                    rfl

theorem checkedLine_eq (steps : Nat) (inside : position ≤ text.length)
    (enough : text.length ≤ position + steps) :
    checkedLine text steps position = some (line (text.drop position) position) := by
  induction steps generalizing position with
  | zero =>
      obtain rfl : position = text.length := by omega
      rw [List.drop_length]
      rfl
  | succ steps inductionHypothesis =>
      rw [checkedLine]
      split
      next ended =>
        obtain rfl : position = text.length := by omega
        rw [List.drop_length]
        rfl
      next more =>
        obtain ⟨code, here, left⟩ := exists_code (Nat.lt_of_not_le more)
        have onward : checkedLine text steps (position + 1) =
            some (line (text.drop (position + 1)) (position + 1)) :=
          inductionHypothesis (by omega) (by omega)
        have statement := checkedBody_eq (steps + 1) (Nat.le_refl position) inside enough
          (.statement true)
        rw [nameBefore_start] at statement
        rw [left] at statement ⊢
        rw [here, line]
        simp only [Option.bind_eq_bind, Option.bind_some, onward, statement]
        split
        · rfl
        · split <;> rfl

end Crunch

/-- Crunches a typed line from place to place. -/
def checkedCrunch (text : List Code) : Option Crunched := do
  return ⟨← Crunch.checkedLine text text.length 0⟩

/-- Whatever is typed, it is crunched within its bounds. -/
theorem checkedCrunch_eq (text : List Code) : checkedCrunch text = some (crunch text) := by
  rw [checkedCrunch, Crunch.checkedLine_eq _ (Nat.zero_le _) (Nat.le_add_left _ _)]
  rfl

end HomeBasic
