import HomeBasic.Code

/-!
# Pieces between commas

The items of a list stand between commas, but a comma inside of quotes separates nothing.
Whether a code is inside of quotes is told by the quotes before it, so all of this reads a
run of codes from the left, with a flag for an open quote.

Main statements: codes are their first piece and the pieces behind its comma
(`pieces_split`), a comma behind closed quotes separates pieces (`pieces_append`), and behind
a text in quotes the codes are as tidy as before (`tidy_behind_text`).
-/

namespace HomeBasic
namespace Code

/-- Codes without commas that separate, unless those are allowed, and with all quotes
closed, unless the last may be left open. -/
def tidy (commas loose : Bool) : (quoted : Bool) → List Code → Bool
  | quoted, [] => !quoted || loose
  | quoted, code :: rest =>
      (quoted || commas || code != comma) && tidy commas loose (quoted != (code == quote)) rest

/-- The runs of codes between the commas that separate. -/
def pieces : (quoted : Bool) → List Code → List (List Code)
  | _, [] => [[]]
  | quoted, code :: rest =>
      if !quoted && code == comma then [] :: pieces false rest
      else (pieces (quoted != (code == quote)) rest).modifyHead (code :: ·)

variable {commas loose quoted : Bool} {code : Code} {codes rest text piece : List Code}

/-! ## Tidy codes -/

theorem tidy_anything : tidy true true quoted codes = true := by
  induction codes generalizing quoted with
  | nil => simp [tidy]
  | cons code rest inductionHypothesis => simp [tidy, inductionHypothesis]

theorem tidy_tail (solid : code ≠ quote) (start : tidy commas loose false (code :: rest) = true) :
    tidy commas loose false rest = true := by
  simp only [tidy, beq_false_of_ne solid, Bool.and_eq_true] at start
  exact start.2

theorem tidy_drop {count : Nat} (solid : ∀ code ∈ codes.take count, code ≠ quote)
    (start : tidy commas loose false codes = true) :
    tidy commas loose false (codes.drop count) = true := by
  induction count generalizing codes with
  | zero => exact start
  | succ count inductionHypothesis =>
      cases codes with
      | nil => exact start
      | cons code rest =>
          have first : code ≠ quote := solid code (by simp)
          refine inductionHypothesis (fun other member => solid other ?_) (tidy_tail first start)
          exact List.mem_cons_of_mem _ member

/-- After a text and its closing quote the codes are tidy again. -/
theorem tidy_behind_text (plain : ∀ code ∈ text, code ≠ quote)
    (start : tidy commas loose true (text ++ quote :: rest) = true) :
    tidy commas loose false rest = true := by
  induction text with
  | nil => simpa [tidy] using start
  | cons code text inductionHypothesis =>
      have solid : code ≠ quote := plain code (by simp)
      simp only [List.cons_append, tidy, beq_false_of_ne solid, Bool.and_eq_true] at start
      exact inductionHypothesis (fun other member => plain other (by simp [member])) start.2

/-- A text that has to be closed has its closing quote. -/
theorem exists_quote_of_tidy (start : tidy commas false true codes = true) :
    ∃ text rest, codes = text ++ quote :: rest ∧ ∀ code ∈ text, code ≠ quote := by
  induction codes with
  | nil => simp [tidy] at start
  | cons code rest inductionHypothesis =>
      by_cases closing : code = quote
      · exact ⟨[], rest, by rw [closing]; rfl, by simp⟩
      · simp only [tidy, beq_false_of_ne closing, Bool.and_eq_true] at start
        obtain ⟨text, further, split, plain⟩ := inductionHypothesis start.2
        refine ⟨code :: text, further, by rw [split]; rfl, ?_⟩
        intro other member
        rcases List.mem_cons.mp member with rfl | member
        · exact closing
        · exact plain other member

/-- A comma that separates is not tidy where none is allowed. -/
theorem head_ne_comma (start : tidy false loose false (code :: rest) = true) : code ≠ comma := by
  rintro rfl
  simp [tidy] at start

/-! ## Pieces -/

theorem pieces_ne_nil : pieces quoted codes ≠ [] := by
  induction codes generalizing quoted with
  | nil => simp [pieces]
  | cons code rest inductionHypothesis =>
      unfold pieces
      split
      · simp
      · cases split : pieces (quoted != (code == quote)) rest with
        | nil => exact absurd split inductionHypothesis
        | cons first others => simp

/-- Behind codes whose quotes are closed a comma separates the items. -/
theorem pieces_append (closed : tidy true false quoted codes = true) :
    pieces quoted (codes ++ comma :: rest) = pieces quoted codes ++ pieces false rest := by
  induction codes generalizing quoted with
  | nil =>
      obtain rfl : quoted = false := by simpa [tidy] using closed
      rfl
  | cons code codes inductionHypothesis =>
      simp only [tidy, Bool.or_true, Bool.true_or, Bool.true_and] at closed
      have further := inductionHypothesis closed
      rw [List.cons_append, pieces, pieces, further]
      split
      next separates =>
        obtain ⟨rfl, rfl⟩ : quoted = false ∧ code = comma := by simpa using separates
        rw [List.cons_append]
        exact congrArg ([] :: ·) further
      next =>
        cases front : pieces (quoted != (code == quote)) codes with
        | nil => exact absurd front pieces_ne_nil
        | cons first others => rfl

/-- Codes are their first piece, and if others follow, its quotes are closed and a comma
stands behind it. -/
theorem pieces_split (codes : List Code) (quoted : Bool) :
    (tidy false true quoted codes = true ∧ pieces quoted codes = [codes]) ∨
      ∃ piece rest, codes = piece ++ comma :: rest ∧ tidy false false quoted piece = true ∧
        pieces quoted codes = piece :: pieces false rest := by
  induction codes generalizing quoted with
  | nil => exact .inl ⟨by simp [tidy], rfl⟩
  | cons code codes inductionHypothesis =>
      by_cases separates : (!quoted && code == comma) = true
      · obtain ⟨rfl, rfl⟩ : quoted = false ∧ code = comma := by simpa using separates
        exact .inr ⟨[], codes, rfl, by simp [tidy], rfl⟩
      · have inside : (quoted || code != comma) = true := by
          cases quoted <;> simp_all
        rcases inductionHypothesis (quoted != (code == quote)) with
          ⟨last, whole⟩ | ⟨piece, rest, split, closed, others⟩
        · left
          rw [pieces, if_neg separates, whole]
          exact ⟨by simp [tidy, inside, last], rfl⟩
        · right
          refine ⟨code :: piece, rest, by rw [split]; rfl, by simp [tidy, inside, closed], ?_⟩
          rw [pieces, if_neg separates, others]
          rfl

end Code
end HomeBasic
