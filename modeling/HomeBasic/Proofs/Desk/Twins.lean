import HomeBasic.Proofs.Desk.Movement
import HomeBasic.Proofs.Scanner.Twins

/-!
# Desks at twin scanners

Two desks whose scanners are twins and which have the same operations pending take the
same steps. Their consoles may be of different kinds; all that matters of them is told by a
relation that both keep to.

Main statement: every step of the desk mirrors itself (`mirrored_look_bind`,
`mirrored_expect`, `mirrored_push`, …).
-/

namespace HomeBasic
namespace Desk

open Attempt (Matches Mirrored)
open Scanner (Course)

/-- Two desks at twin scanners, with the same operations pending. -/
structure Twins {H K : Type} (course : Course) (meet : H → K → Prop) (desk : Desk H)
    (opposite : Desk K) : Prop where
  scanner : Scanner.Twins course desk.scanner opposite.scanner
  calculator : opposite.calculator = desk.calculator
  console : meet desk.console opposite.console

/-- Two such desks whose scanners look at a code, unless the first is at the end of its line. -/
structure TwinsAt {H K : Type} (course : Course) (meet : H → K → Prop) (code : Code)
    (desk : Desk H) (opposite : Desk K) : Prop extends Twins course meet desk opposite where
  current : desk.scanner.current = code

variable {H K α : Type} {course : Course} {meet : H → K → Prop} {code : Code}

theorem mirrored_scanning {step : Attempt Scanner α} {start : Scanner → Scanner → Prop}
    (mirrored : Mirrored start step step (Scanner.Twins course)) :
    Mirrored (fun desk opposite => Twins course meet desk opposite ∧
        start desk.scanner opposite.scanner)
      (scanning step : Attempt (Desk H) α) (scanning step : Attempt (Desk K) α)
      (Twins course meet) := by
  rintro desk opposite ⟨twins, starts⟩
  have reached := mirrored desk.scanner opposite.scanner starts
  simp only [scanning, Attempt.within_apply]
  exact ⟨reached.1, reached.2, twins.calculator, twins.console⟩

/-- What is done after a look depends on the code. At the end of its line the first desk goes
on with the end and the second one with what it finds there. -/
theorem Twins.look_bind {desk : Desk H} {opposite : Desk K}
    {next : Code → Attempt (Desk H) α} {onward : Code → Attempt (Desk K) α}
    (twins : Twins course meet desk opposite)
    (rest : ∀ code reached arrived, code ≠ Code.newline →
      TwinsAt course meet code reached arrived →
      reached.scanner.line.length ≤ desk.scanner.line.length →
      Matches (Twins course meet) (next code reached) (onward code arrived))
    (ends : ∀ reached arrived, TwinsAt course meet Code.newline reached arrived →
      Matches (Twins course meet) (next Code.newline reached)
        (onward (course.after.headD Code.newline) arrived)) :
    Matches (Twins course meet) ((look >>= next) desk) ((look >>= onward) opposite) := by
  have looked := twins.scanner.look
  have arrived : TwinsAt course meet desk.scanner.look.current
      { desk with scanner := desk.scanner.look }
      { opposite with scanner := opposite.scanner.look } :=
    ⟨⟨looked, twins.calculator, twins.console⟩, rfl⟩
  rw [Attempt.bind_apply, Attempt.bind_apply, look_apply, look_apply]
  dsimp only
  by_cases more : desk.scanner.look.current = Code.newline
  · rw [looked.current_of_end (Scanner.line_eq_nil more)]
    rw [more] at arrived ⊢
    exact ends _ _ arrived
  · rw [looked.current more]
    exact rest _ _ _ more arrived desk.scanner.follows_look.codesLeft_le

theorem mirrored_look_bind {next : Code → Attempt (Desk H) α} {onward : Code → Attempt (Desk K) α}
    (rest : ∀ code, code ≠ Code.newline →
      Mirrored (TwinsAt course meet code) (next code) (onward code) (Twins course meet))
    (ends : Mirrored (TwinsAt course meet Code.newline) (next Code.newline)
      (onward (course.after.headD Code.newline)) (Twins course meet)) :
    Mirrored (Twins course meet) (look >>= next) (look >>= onward) (Twins course meet) :=
  fun _ _ twins => twins.look_bind
    (fun code reached arrived more twins _ => rest code more reached arrived twins) ends

theorem mirrored_advance (more : code ≠ Code.newline) (solid : code ≠ Code.quote) :
    Mirrored (TwinsAt course meet code) (advance : Attempt (Desk H) Unit)
      (advance : Attempt (Desk K) Unit) (Twins course meet) := by
  rintro desk opposite ⟨twins, rfl⟩
  exact ⟨rfl, twins.scanner.advance more solid, twins.calculator, twins.console⟩

theorem mirrored_skip_one (more : code ≠ Code.newline) (solid : code ≠ Code.quote) :
    Mirrored (TwinsAt course meet code) (skip 1 : Attempt (Desk H) Unit)
      (skip 1 : Attempt (Desk K) Unit) (Twins course meet) := by
  rintro desk opposite ⟨twins, rfl⟩
  exact ⟨rfl, twins.scanner.skip_one more solid, twins.calculator, twins.console⟩

/-- A code that has to be there is there on both sides, if it is no comma that only the
second one finds behind the line of the first. -/
theorem mirrored_expect {code : Code} (more : code ≠ Code.newline) (solid : code ≠ Code.quote)
    (inner : course.after = [] ∨ code ≠ Code.comma) :
    Mirrored (Twins course meet) (expect code : Attempt (Desk H) Unit)
      (expect code : Attempt (Desk K) Unit) (Twins course meet) := by
  intro desk opposite twins
  have looked := twins.scanner.look
  have same : opposite.scanner.look.current = code ↔ desk.scanner.look.current = code := by
    by_cases ends : desk.scanner.look.current = Code.newline
    · rw [ends, looked.current_of_end (Scanner.line_eq_nil ends)]
      rcases course.cut with none | ⟨_, _, rest, comma⟩
      · rw [none, List.headD_nil]
      · rw [comma, List.headD_cons]
        rcases inner with none | inner
        · rw [comma] at none
          cases none
        · exact iff_of_false (Ne.symm inner) (Ne.symm more)
    · rw [looked.current ends]
  rw [expect_apply, expect_apply]
  by_cases here : desk.scanner.look.current = code
  · rw [if_pos here, if_pos (same.mpr here)]
    refine ⟨rfl, looked.advance ?_ ?_, twins.calculator, twins.console⟩
    · rwa [here]
    · rwa [here]
  · rw [if_neg here, if_neg (mt same.mp here)]
    exact ⟨rfl, looked, twins.calculator, twins.console⟩

theorem scanner_of_push {pending : Pending} {desk later : Desk H} {value : Unit}
    (run : push pending desk = (.ok value, later)) : later.scanner = desk.scanner := by
  rw [push_apply] at run
  split at run <;> cases run
  rfl

theorem mirrored_push (pending : Pending) :
    Mirrored (Twins course meet) (push pending : Attempt (Desk H) Unit)
      (push pending : Attempt (Desk K) Unit) (Twins course meet) := by
  intro desk opposite twins
  rw [push_apply, push_apply, twins.calculator]
  cases desk.calculator.push pending with
  | error fault => exact ⟨rfl, twins⟩
  | ok calculator => exact ⟨rfl, twins.scanner, rfl, twins.console⟩

theorem mirrored_restoring {left : Attempt (Desk H) α} {right : Attempt (Desk K) α}
    (mirrored : Mirrored (Twins course meet) left right (Twins course meet)) :
    Mirrored (Twins course meet) (restoring left) (restoring right) (Twins course meet) := by
  intro desk opposite twins
  have reached := mirrored desk opposite twins
  unfold restoring
  generalize left desk = outcome at reached ⊢
  generalize right opposite = arrival at reached ⊢
  obtain ⟨same, arrived⟩ := reached
  rcases outcome with ⟨fault | value, changed⟩ <;> rcases arrival with ⟨other, moved⟩ <;>
    cases same
  · refine ⟨rfl, arrived.scanner, ?_, arrived.console⟩
    dsimp only
    rw [arrived.calculator, twins.calculator]
  · exact ⟨rfl, arrived⟩

/-- A name is read, with its use, and stays ahead. -/
theorem mirrored_readName_bind {next : Name × NameUse → Attempt (Desk H) α}
    {onward : Name × NameUse → Attempt (Desk K) α} (more : code ≠ Code.newline)
    (rest : ∀ name use, Mirrored
      (fun desk opposite => TwinsAt course meet code desk opposite ∧
        desk.scanner.nameAhead = (use, name.length))
      (next (name, use)) (onward (name, use)) (Twins course meet)) :
    Mirrored (TwinsAt course meet code) (readName >>= next) (readName >>= onward)
      (Twins course meet) := by
  rintro desk opposite ⟨twins, rfl⟩
  have name := twins.scanner.nameAhead more
  have inside := Scanner.nameAhead_le more
  have same : opposite.scanner.rest.take desk.scanner.nameAhead.2 =
      desk.scanner.rest.take desk.scanner.nameAhead.2 := by
    have others : opposite.scanner.current ≠ Code.newline := by rwa [twins.scanner.current more]
    have taken := Scanner.take_nameAhead others
    rw [name] at taken
    rw [taken, Scanner.take_nameAhead more, twins.scanner.line,
      List.take_append_of_le_length inside]
  have length : (desk.scanner.rest.take desk.scanner.nameAhead.2).length =
      desk.scanner.nameAhead.2 := by
    rw [Scanner.take_nameAhead more, List.length_take, Nat.min_eq_left inside]
  rw [Attempt.bind_apply, Attempt.bind_apply, readName_apply, readName_apply, name, same]
  by_cases long : maxNameLength < desk.scanner.nameAhead.2
  · rw [if_pos long, if_pos long]
    exact ⟨rfl, twins⟩
  · rw [if_neg long, if_neg long]
    exact rest _ _ _ _ ⟨⟨twins, rfl⟩, by rw [length]⟩

/-- A name that is ahead is passed over, up to the sign of a text or of its function. -/
theorem mirrored_skip_name_bind {next : Unit → Attempt (Desk H) α}
    {onward : Unit → Attempt (Desk K) α} {count : Nat} {use : NameUse}
    (more : code ≠ Code.newline) (solid : code ≠ Code.quote)
    (rest : Mirrored (fun desk opposite => Twins course meet desk opposite ∧
        (use = .text ∨ use = .textFunction → desk.scanner.current = Code.dollar))
      (next ()) (onward ()) (Twins course meet)) :
    Mirrored
      (fun desk opposite => TwinsAt course meet code desk opposite ∧
        desk.scanner.nameAhead = (use, count))
      (skip count >>= next) (skip count >>= onward) (Twins course meet) := by
  rintro desk opposite ⟨⟨twins, rfl⟩, name⟩
  obtain ⟨codes, opens⟩ := Scanner.line_eq_cons rfl more
  have inside := Scanner.nameAhead_le more
  have plain := Scanner.plain_nameAhead opens solid
  have text := Scanner.dollar_of_nameAhead opens
  rw [name] at inside plain text
  rw [Attempt.bind_apply, Attempt.bind_apply, skip_apply, skip_apply]
  refine rest _ _ ⟨⟨twins.scanner.skip inside plain, twins.calculator, twins.console⟩, ?_⟩
  intro signed
  obtain ⟨behind, sign⟩ := text signed
  rw [Scanner.current_eq_headD, Scanner.line_skip, sign]
  rfl

end Desk
end HomeBasic
