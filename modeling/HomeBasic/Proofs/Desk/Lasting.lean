import HomeBasic.Proofs.Desk.Movement

/-!
# What lasts while a line is read

A scanner only ever passes over codes of its line and notes the cursor. What survives both
survives everything that is read with it, whether it is read well or not, but for the places
where a statement word is looked for.

Main statement: the steps of a desk keep what lasts (`keepsScanner_look`,
`keepsScanner_expect`, …).
-/

namespace HomeBasic

open Attempt (Meets Sustains)

namespace Scanner

/-- What holds of a scanner still holds when it has passed over codes or noted the cursor. -/
structure Lasting (holds : Scanner → Prop) : Prop where
  pass : ∀ {scanner : Scanner} (count : Nat), holds scanner → holds (scanner.pass count)
  noteCursor : ∀ {scanner : Scanner}, holds scanner → holds scanner.noteCursor

/-- What holds of a scanner still holds when it has passed over codes of its line or noted the
cursor. -/
structure Inline (holds : Scanner → Prop) : Prop where
  pass : ∀ {scanner : Scanner} {count : Nat}, count ≤ scanner.codesLeft → holds scanner →
    holds (scanner.pass count)
  noteCursor : ∀ {scanner : Scanner}, holds scanner → holds scanner.noteCursor

variable {holds : Scanner → Prop} {scanner : Scanner}

theorem Lasting.inline (lasting : Lasting holds) : Inline holds :=
  ⟨fun _ => lasting.pass _, lasting.noteCursor⟩

/-- What is left of a line lies behind what was passed over before. -/
theorem inline_follows (start : Scanner) : Inline (·.Follows start) :=
  ⟨fun inside follows => (Follows.of_pass inside).trans follows,
    fun follows => (follows_noteCursor _).trans follows⟩

namespace Inline

variable (inline : Inline holds)
include inline

theorem skip (count : Nat) (start : holds scanner) : holds (scanner.skip count) :=
  inline.pass (Nat.min_le_right _ _) start

theorem look (start : holds scanner) : holds scanner.look := by
  have spaces : ∀ code : Code, (code == Code.space) = true → (code != Code.newline) = true := by
    intro code blank
    rw [eq_of_beq blank]
    decide
  exact inline.noteCursor (inline.pass (length_takeWhile_le spaces) start)

theorem advance (start : holds scanner) : holds scanner.advance :=
  inline.look (inline.skip 1 start)

theorem sustains_look : Sustains holds (modify Scanner.look) fun _ => True :=
  Attempt.sustains_modify fun _ => inline.look

theorem sustains_advance : Sustains holds (modify Scanner.advance) fun _ => True :=
  Attempt.sustains_modify fun _ => inline.advance

theorem sustains_expect (code : Code) : Sustains holds (expect code) fun _ => True := by
  refine inline.sustains_look.bind fun _ _ => Attempt.sustains_get.bind fun scanner _ => ?_
  split
  · exact inline.sustains_advance
  · exact Attempt.sustains_throw _

theorem sustains_expectEnd : Sustains holds expectEnd fun _ => True :=
  inline.sustains_look.bind fun _ _ => Attempt.sustains_get.bind fun _ _ =>
    Attempt.sustains_guard fun _ => Attempt.sustains_pure trivial

theorem meets_readDigits (size : WordSize) {digits : List Code} (value : Int)
    (inside : digits.length ≤ scanner.codesLeft) (start : holds scanner) :
    Meets (fun _ later => True ∧ holds later) (fun _ later => holds later)
      (readDigits size digits value scanner) := by
  induction digits generalizing value scanner with
  | nil => exact ⟨trivial, start⟩
  | cons digit digits inductionHypothesis =>
      rw [List.length_cons] at inside
      have some : 1 ≤ scanner.codesLeft := Nat.le_trans (Nat.le_add_left 1 _) inside
      have fewer : digits.length ≤ (scanner.pass 1).codesLeft := by
        rw [codesLeft_pass some]
        exact Nat.le_sub_of_add_le inside
      rw [readDigits, Attempt.bind_apply, Attempt.ofExcept_apply]
      cases size.checked (10 * value + digit.digitValue) with
      | error fault => exact start
      | ok next => exact inductionHypothesis next fewer (inline.pass some start)

theorem sustains_readNumber (size : WordSize) : Sustains holds (readNumber size) fun _ => True :=
  fun _ start => inline.meets_readDigits size 0 (length_takeWhile_le digit_onLine)
    (inline.look start)

/-- After a text, it depends on where it ends. -/
theorem meets_readText
    (closing : holds (scanner.pass (1 + (scanner.rest.tail.takeWhile fun code =>
      code != Code.quote && code != Code.newline).length))) :
    Meets (fun _ later => True ∧ holds later) (fun _ later => holds later)
      (readText scanner) := by
  rw [readText, Attempt.bind_apply, Attempt.get_apply]
  dsimp only
  rw [Attempt.bind_apply, Attempt.set_apply]
  dsimp only
  split
  · exact ⟨trivial, inline.advance closing⟩
  · exact closing

end Inline

theorem Lasting.sustains_readText (lasting : Lasting holds) :
    Sustains holds readText fun _ => True :=
  fun _ start => lasting.inline.meets_readText (lasting.pass _ start)

end Scanner

namespace Desk

variable {H α : Type} {holds : Scanner → Prop}

/-- However a step at a desk ends, it leaves alone what holds of the scanner. -/
abbrev KeepsScanner (holds : Scanner → Prop) (step : Attempt (Desk H) α) : Prop :=
  Sustains (fun desk : Desk H => holds desk.scanner) step fun _ => True

theorem keepsScanner_scanning {step : Attempt Scanner α}
    (sustains : Sustains holds step fun _ => True) :
    KeepsScanner holds (scanning step : Attempt (Desk H) α) :=
  Attempt.sustains_within sustains (fun _ start => start) fun _ _ _ start => start

theorem keepsScanner_of_same {step : Attempt (Desk H) α}
    (same : ∀ desk, (step desk).2.scanner = desk.scanner) : KeepsScanner holds step :=
  Attempt.sustains_of_kept fun desk start => (same desk).symm ▸ start

theorem keepsScanner_consulting (step : Attempt H α) :
    KeepsScanner holds (consulting step : Attempt (Desk H) α) :=
  keepsScanner_of_same fun _ => rfl

theorem keepsScanner_pure (value : α) : KeepsScanner holds (pure value : Attempt (Desk H) α) :=
  Attempt.sustains_pure trivial

theorem keepsScanner_throw (fault : Fault) :
    KeepsScanner holds (throw fault : Attempt (Desk H) α) :=
  Attempt.sustains_throw fault

theorem keepsScanner_ofExcept (result : Except Fault α) :
    KeepsScanner holds (Attempt.ofExcept result : Attempt (Desk H) α) :=
  keepsScanner_of_same fun _ => rfl

theorem keepsScanner_set {desk : Desk H} (start : holds desk.scanner) :
    KeepsScanner holds (set desk : Attempt (Desk H) PUnit) :=
  Attempt.sustains_set start

theorem keepsScanner_push (pending : Pending) :
    KeepsScanner holds (push pending : Attempt (Desk H) Unit) := by
  refine keepsScanner_of_same fun desk => ?_
  rw [push_apply]
  split <;> rfl

theorem keepsScanner_readName :
    KeepsScanner holds (readName : Attempt (Desk H) (Name × NameUse)) := by
  refine keepsScanner_of_same fun desk => ?_
  rw [readName_apply]
  split <;> rfl

theorem keepsScanner_restoring {step : Attempt (Desk H) α} (keeps : KeepsScanner holds step) :
    KeepsScanner holds (restoring step) := by
  intro desk start
  have reached := keeps desk start
  unfold restoring
  generalize step desk = outcome at reached ⊢
  rcases outcome with ⟨fault | value, changed⟩
  · exact reached
  · exact reached

variable (inline : Scanner.Inline holds)
include inline

theorem keepsScanner_look : KeepsScanner holds (look : Attempt (Desk H) Code) :=
  keepsScanner_scanning <| inline.sustains_look.bind fun _ _ =>
    Attempt.sustains_get.bind fun _ _ => Attempt.sustains_pure trivial

theorem keepsScanner_advance : KeepsScanner holds (advance : Attempt (Desk H) Unit) :=
  keepsScanner_scanning inline.sustains_advance

theorem keepsScanner_skip (count : Nat) :
    KeepsScanner holds (skip count : Attempt (Desk H) Unit) :=
  keepsScanner_scanning (Attempt.sustains_modify fun _ start => inline.skip count start)

theorem keepsScanner_skipToEnd :
    KeepsScanner holds (scanning (modify Scanner.skipToEnd) : Attempt (Desk H) PUnit) :=
  keepsScanner_scanning
    (Attempt.sustains_modify fun _ start => inline.pass (Nat.le_refl _) start)

theorem keepsScanner_expect (code : Code) :
    KeepsScanner holds (expect code : Attempt (Desk H) Unit) :=
  keepsScanner_scanning (inline.sustains_expect code)

theorem keepsScanner_expectEnd : KeepsScanner holds (expectEnd : Attempt (Desk H) Unit) :=
  keepsScanner_scanning inline.sustains_expectEnd

end Desk
end HomeBasic
