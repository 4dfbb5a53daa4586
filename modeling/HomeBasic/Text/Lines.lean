import HomeBasic.Text.Blank

/-!
# Lines of text

A text is cut behind each line feed. Main statement: the lines put together
are the text (`flatten_lines`).
-/

namespace HomeBasic
namespace Text

/-- The lines of a text, each with its line feed if it has one. -/
def lines : List Char → List (List Char)
  | [] => []
  | character :: rest =>
      if character = '\n' then
        [character] :: lines rest
      else
        match lines rest with
        | [] => [[character]]
        | line :: others => (character :: line) :: others

/-- The lines put together are the text. -/
@[simp] theorem flatten_lines (text : List Char) : (lines text).flatten = text := by
  induction text with
  | nil => rfl
  | cons character rest inductionHypothesis =>
      unfold lines
      split
      · simp [inductionHypothesis]
      · split <;> simp_all

/-- A line without its line feed, and without the carriage return in front of that. -/
def withoutEnding (line : List Char) : List Char :=
  match line.reverse with
  | '\n' :: '\r' :: rest => rest.reverse
  | '\n' :: rest => rest.reverse
  | _ => line

/-- The lines of a text that hold more than blank characters, without their endings. -/
def nonBlankLines (text : List Char) : List (List Char) :=
  ((lines text).map withoutEnding).filter fun line => !line.all isBlank

end Text
end HomeBasic
