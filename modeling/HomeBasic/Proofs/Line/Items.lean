import HomeBasic.Program
import HomeBasic.Proofs.Line.Pieces
import HomeBasic.Statement
import Mathlib.Data.List.DropRight

/-!
# The items of a line

A line whose statement begins with `DATA` lists items behind the word: the pieces between
its commas, without the spaces in front of them. The items of a program are those of its
lines, in their order.

Main statements: a list of items is its first item and those behind the comma
(`items_split`), spaces in front of a list make no difference (`items_trimmed`), and where
an item of a list begins its last items are left (`ItemsLeft.items_suffix`).
-/

namespace HomeBasic
namespace Code

/-- Codes without the spaces in front of them. -/
def trimmed (codes : List Code) : List Code :=
  codes.dropWhile (· == space)

/-- The items of a list, in order. -/
def items (codes : List Code) : List (List Code) :=
  (pieces false codes).map trimmed

/-- Codes are left of a list from the first code of an item on: they are all of it, or what
follows a comma that separates, and the spaces behind it. -/
def ItemsLeft (codes left : List Code) : Prop :=
  left = codes ∨ ∃ whole behind, codes = whole ++ comma :: behind ∧
    tidy true false false whole = true ∧ left = trimmed behind

variable {commas loose quoted : Bool} {codes rest behind item left : List Code}
  {others : List (List Code)}

/-! ## Spaces -/

theorem trimmed_suffix (codes : List Code) : trimmed codes <:+ codes :=
  List.dropWhile_suffix _

theorem exists_blank_append_trimmed (codes : List Code) :
    ∃ blank, (∀ code ∈ blank, code = space) ∧ codes = blank ++ trimmed codes := by
  refine ⟨codes.takeWhile (· == space), fun code member => ?_, List.takeWhile_append_dropWhile.symm⟩
  simpa using List.all_eq_true.mp List.all_takeWhile code member

@[simp] theorem trimmed_trimmed (codes : List Code) : trimmed (trimmed codes) = trimmed codes :=
  List.dropWhile_idempotent _ _

theorem trimmed_append_comma (codes rest : List Code) :
    trimmed (codes ++ comma :: rest) = trimmed codes ++ comma :: rest := by
  induction codes with
  | nil => rfl
  | cons code codes inductionHypothesis =>
      unfold trimmed at inductionHypothesis ⊢
      rw [List.cons_append, List.dropWhile_cons, List.dropWhile_cons, inductionHypothesis]
      split <;> rfl

theorem tidy_trimmed (start : tidy commas loose false codes = true) :
    tidy commas loose false (trimmed codes) = true := by
  induction codes with
  | nil => exact start
  | cons code rest inductionHypothesis =>
      unfold trimmed at inductionHypothesis ⊢
      rw [List.dropWhile_cons]
      split
      next blank =>
        have solid : code ≠ quote := by
          rw [eq_of_beq blank]
          decide
        exact inductionHypothesis (tidy_tail solid start)
      next => exact start

theorem tidy_append (first : tidy true false quoted codes = true)
    (second : tidy true loose false rest = true) :
    tidy true loose quoted (codes ++ rest) = true := by
  induction codes generalizing quoted with
  | nil =>
      obtain rfl : quoted = false := by simpa [tidy] using first
      exact second
  | cons code codes inductionHypothesis =>
      simp only [tidy, Bool.or_true, Bool.true_or, Bool.true_and, List.cons_append] at first ⊢
      exact inductionHypothesis first

/-- What has no commas that separate is tidy also where there may be some. -/
theorem tidy_weaken (start : tidy false loose quoted codes = true) :
    tidy true loose quoted codes = true := by
  induction codes generalizing quoted with
  | nil => exact start
  | cons code codes inductionHypothesis =>
      simp only [tidy, Bool.and_eq_true] at start
      simp only [tidy, Bool.or_true, Bool.true_or, Bool.true_and]
      exact inductionHypothesis start.2

theorem tidy_blank (blank : ∀ code ∈ codes, code = space) :
    tidy true false false codes = true := by
  induction codes with
  | nil => rfl
  | cons code codes inductionHypothesis =>
      obtain ⟨rfl, others⟩ := List.forall_mem_cons.mp blank
      exact inductionHypothesis others

/-! ## Items -/

theorem items_ne_nil : items codes ≠ [] := by
  simp [items, pieces_ne_nil]

/-- A list is its first item, and if others follow, its quotes are closed and a comma
stands behind it. -/
theorem items_split (codes : List Code) :
    (tidy false true false (trimmed codes) = true ∧ items codes = [trimmed codes]) ∨
      ∃ item rest, trimmed codes = item ++ comma :: rest ∧ tidy false false false item = true ∧
        items codes = item :: items rest := by
  rcases pieces_split codes false with ⟨last, whole⟩ | ⟨piece, rest, rfl, closed, others⟩
  · left
    rw [items, whole]
    exact ⟨tidy_trimmed last, rfl⟩
  · right
    rw [items, others]
    exact ⟨trimmed piece, rest, trimmed_append_comma piece rest, tidy_trimmed closed, rfl⟩

/-- Spaces in front of a list are part of no item. -/
theorem items_trimmed (codes : List Code) : items (trimmed codes) = items codes := by
  induction codes with
  | nil => rfl
  | cons code rest inductionHypothesis =>
      by_cases blank : code = space
      · subst blank
        have dropped : trimmed (space :: rest) = trimmed rest := rfl
        have front : pieces false (space :: rest) =
            (pieces false rest).modifyHead (space :: ·) := rfl
        rw [dropped, inductionHypothesis, items, items, front]
        cases pieces false rest <;> rfl
      · rw [trimmed, List.dropWhile_cons_of_neg (by simpa using blank)]

namespace ItemsLeft

theorem all (codes : List Code) : ItemsLeft codes codes :=
  .inl rfl

/-- Behind an item and its comma the next item begins. -/
theorem next (start : ItemsLeft codes left) (opens : trimmed left = item ++ comma :: behind)
    (closed : tidy false false false item = true) : ItemsLeft codes (trimmed behind) := by
  have past {front : List Code} (blank : ∀ code ∈ front, code = space) :
      tidy true false false (front ++ item) = true :=
    tidy_append (tidy_blank blank) (tidy_weaken closed)
  right
  rcases start with rfl | ⟨whole, after, rfl, outside, rfl⟩
  · obtain ⟨blank, spaces, split⟩ := exists_blank_append_trimmed left
    refine ⟨blank ++ item, behind, ?_, past spaces, rfl⟩
    rw [split, opens, List.append_assoc]
  · obtain ⟨blank, spaces, split⟩ := exists_blank_append_trimmed after
    rw [trimmed_trimmed] at opens
    refine ⟨whole ++ comma :: (blank ++ item), behind, ?_, ?_, rfl⟩
    · rw [split, opens]
      simp
    · exact tidy_append outside (past spaces)

theorem suffix (start : ItemsLeft codes left) : left <:+ codes := by
  rcases start with rfl | ⟨whole, behind, rfl, _, rfl⟩
  · exact List.suffix_rfl
  · obtain ⟨blank, split⟩ := trimmed_suffix behind
    exact ⟨whole ++ comma :: blank, by rw [List.append_assoc, List.cons_append, split]⟩

/-- What is left lists the last items of the list. -/
theorem items_suffix (start : ItemsLeft codes left) : items left <:+ items codes := by
  rcases start with rfl | ⟨whole, behind, rfl, closed, rfl⟩
  · exact List.suffix_rfl
  · rw [items_trimmed, items, items, pieces_append closed, List.map_append]
    exact List.suffix_append _ _

end ItemsLeft

end Code

/-! ## Items of a program -/

namespace Line

/-- The list of a line whose statement begins with `DATA`. -/
def list? (line : Line) : Option (List Code) :=
  match line.body with
  | [] => none
  | code :: rest => if code = StatementWord.data.code then some rest else none

/-- The items of a line. Only a statement that begins with `DATA` has any. -/
def items (line : Line) : List (List Code) :=
  line.list?.elim [] Code.items

/-- An offset of a statement is the place of the first code of one of its items. -/
def ItemAt (line : Line) (offset : Nat) : Prop :=
  ∃ list left, line.list? = some list ∧ Code.ItemsLeft list left ∧
    offset + left.length = line.body.length

variable {line : Line} {list : List Code} {offset : Nat}

theorem list?_eq_some_iff :
    line.list? = some list ↔ line.body = StatementWord.data.code :: list := by
  unfold list?
  cases line.body with
  | nil => simp
  | cons code rest =>
      dsimp only
      split
      next word => simp [word]
      next other => simp [other]

theorem items_of_list (listed : line.list? = some list) : line.items = Code.items list := by
  rw [items, listed]
  rfl

theorem items_of_none (unlisted : line.list? = none) : line.items = [] := by
  rw [items, unlisted]
  rfl

theorem drop_of_list (listed : line.list? = some list) : line.body.drop 1 = list := by
  rw [list?_eq_some_iff.mp listed]
  rfl

/-- The first item follows the word. -/
theorem itemAt_one (listed : line.list? = some list) : line.ItemAt 1 := by
  refine ⟨list, list, listed, .all list, ?_⟩
  rw [list?_eq_some_iff.mp listed, List.length_cons, Nat.add_comm]

theorem drop_of_itemsLeft {left : List Code} (listed : line.list? = some list)
    (start : Code.ItemsLeft list left) (place : offset + left.length = line.body.length) :
    line.body.drop offset = left := by
  obtain ⟨front, rfl⟩ := start.suffix
  have body := list?_eq_some_iff.mp listed
  rw [body] at place ⊢
  simp only [List.length_cons, List.length_append] at place
  rw [show offset = front.length + 1 by omega, List.drop_succ_cons, List.drop_left]

/-- The items from one of them on are items of the line. -/
theorem ItemAt.items_suffix (place : line.ItemAt offset) :
    Code.items (line.body.drop offset) <:+ line.items := by
  obtain ⟨list, left, listed, start, place⟩ := place
  rw [drop_of_itemsLeft listed start place, items_of_list listed]
  exact start.items_suffix

end Line

end HomeBasic
