import HomeBasic.Proofs.Desk.Lasting
import HomeBasic.Proofs.Scanner.Bounds

/-!
# Bounds of what is read at a desk

Names are cut out of the bytes that the scanner was set to. A trial that cuts them out with the
slice checked comes to what a step comes to, as long as the scanner stays over those bytes, which
it does however it moves (`Bounded`).

Main statements: the rules by which trials are put together (`Bounded.bind`, …), and a name that
begins with a letter (`boundedAt_readName`).
-/

namespace HomeBasic

open Attempt (Sustains)
open Checked
open Trial (Succeeds)

/-- However a scanner moves, it stays over its bytes. -/
theorem Scanner.lasting_over (bytes : List Code) : Lasting (Over bytes) where
  pass {scanner} count aligned := by
    have aligned : scanner.rest = bytes.drop scanner.position := aligned
    rw [Over, rest_pass, position_pass, aligned, List.drop_drop]
  noteCursor aligned := aligned.follows (follows_noteCursor _)

theorem Scanner.inline_over (bytes : List Code) : Inline (Over bytes) :=
  (lasting_over bytes).inline

namespace Desk

variable {H α β : Type} {bytes : List Code} {desk : Desk H}

/-- The scanner is over bytes that it was set to. -/
def Over (bytes : List Code) (desk : Desk H) : Prop :=
  desk.scanner.Over bytes

/-! ## With everything checked -/

/-- The name at the scanner and its use. -/
def checkedReadName (bytes : List Code) : Trial (Desk H) (Name × NameUse) := do
  let scanner := (← get).scanner
  match ← scanner.checkedName bytes with
  | .ok name => return (name, scanner.nameAhead.1)
  | .error fault => throw fault

/-- Leaves the stack as it was found if a trial fails. -/
def checkedRestoring (trial : Trial (Desk H) α) : Trial (Desk H) α := fun desk =>
  (trial desk).map fun
    | (.ok value, reached) => (.ok value, reached)
    | (.error fault, reached) =>
        (.error fault,
          { reached with calculator := reached.calculator.truncate desk.calculator.length })

/-! ## Putting trials together -/

/-- At a desk a trial comes to what a step comes to, with the scanner over the same bytes. -/
structure BoundedAt (bytes : List Code) (trial : Trial (Desk H) α) (step : Attempt (Desk H) α)
    (desk : Desk H) : Prop where
  succeeds : Succeeds trial step desk
  aligned : (step desk).2.Over bytes

/-- A trial comes to what a step comes to wherever the scanner is over some bytes. -/
def Bounded (bytes : List Code) (trial : Trial (Desk H) α) (step : Attempt (Desk H) α) : Prop :=
  ∀ desk, desk.Over bytes → BoundedAt bytes trial step desk

theorem BoundedAt.bind {trial : Trial (Desk H) α} {step : Attempt (Desk H) α}
    {next : α → Trial (Desk H) β} {following : α → Attempt (Desk H) β}
    (first : BoundedAt bytes trial step desk)
    (rest : ∀ value reached, step desk = (.ok value, reached) → reached.Over bytes →
      BoundedAt bytes (next value) (following value) reached) :
    BoundedAt bytes (trial >>= next) (step >>= following) desk := by
  obtain ⟨succeeds, aligned⟩ := first
  refine ⟨succeeds.bind fun value reached run => (rest value reached run ?_).succeeds, ?_⟩
  · rwa [run] at aligned
  · rw [Attempt.bind_apply]
    rcases run : step desk with ⟨fault | value, reached⟩ <;> rw [run] at aligned
    · exact aligned
    · exact (rest value reached run aligned).aligned

namespace Bounded

theorem bind {trial : Trial (Desk H) α} {step : Attempt (Desk H) α}
    {next : α → Trial (Desk H) β} {following : α → Attempt (Desk H) β}
    (first : Bounded bytes trial step)
    (rest : ∀ value, Bounded bytes (next value) (following value)) :
    Bounded bytes (trial >>= next) (step >>= following) := fun desk aligned =>
  (first desk aligned).bind fun value reached _ aligned => rest value reached aligned

/-- A checked operation with an outcome may be left out. -/
theorem bind_lift {operation : Option β} {value : β} {next : β → Trial (Desk H) α}
    {step : Attempt (Desk H) α} (outcome : operation = some value)
    (rest : Bounded bytes (next value) step) :
    Bounded bytes (liftM operation >>= next) step := by
  subst outcome
  exact rest

theorem guard {condition : Prop} [Decidable condition] {fault : Fault}
    {rest : PUnit → Trial (Desk H) α} {following : PUnit → Attempt (Desk H) α}
    (otherwise : Bounded bytes (rest ⟨⟩) (following ⟨⟩)) :
    Bounded bytes (if condition then throw fault >>= rest else rest ⟨⟩)
      (if condition then throw fault >>= following else following ⟨⟩) := by
  split
  · exact fun _ aligned => ⟨rfl, aligned⟩
  · exact otherwise

theorem restoring {trial : Trial (Desk H) α} {step : Attempt (Desk H) α}
    (bounded : Bounded bytes trial step) :
    Bounded bytes (checkedRestoring trial) (Desk.restoring step) := by
  intro desk aligned
  obtain ⟨succeeds, aligned⟩ := bounded desk aligned
  have succeeds : trial desk = some (step desk) := succeeds
  unfold Desk.restoring checkedRestoring
  refine ⟨?_, ?_⟩
  · rw [Succeeds, succeeds]
    rcases step desk with ⟨fault | value, reached⟩ <;> rfl
  · generalize step desk = outcome at aligned ⊢
    rcases outcome with ⟨fault | value, reached⟩ <;> exact aligned

end Bounded

theorem bounded_ofAttempt {step : Attempt (Desk H) α}
    (sustains : Sustains (Over bytes) step fun _ => True) :
    Bounded bytes (Trial.ofAttempt step) step := fun _ aligned =>
  ⟨Succeeds.ofAttempt step _, sustains.kept aligned⟩

theorem bounded_pure (value : α) :
    Bounded bytes (pure value : Trial (Desk H) α) (pure value) := fun _ aligned => ⟨rfl, aligned⟩

theorem bounded_throw (fault : Fault) :
    Bounded bytes (throw fault : Trial (Desk H) α) (throw fault) := fun _ aligned => ⟨rfl, aligned⟩

theorem bounded_get : Bounded bytes (get : Trial (Desk H) (Desk H)) get :=
  fun _ aligned => ⟨rfl, aligned⟩

theorem bounded_look : Bounded bytes (Trial.ofAttempt look : Trial (Desk H) Code) look :=
  bounded_ofAttempt (keepsScanner_look (Scanner.inline_over bytes))

theorem bounded_advance : Bounded bytes (Trial.ofAttempt advance : Trial (Desk H) Unit) advance :=
  bounded_ofAttempt (keepsScanner_advance (Scanner.inline_over bytes))

theorem bounded_skip (count : Nat) :
    Bounded bytes (Trial.ofAttempt (skip count) : Trial (Desk H) Unit) (skip count) :=
  bounded_ofAttempt (keepsScanner_skip (Scanner.inline_over bytes) count)

theorem bounded_expect (code : Code) :
    Bounded bytes (Trial.ofAttempt (expect code) : Trial (Desk H) Unit) (expect code) :=
  bounded_ofAttempt (keepsScanner_expect (Scanner.inline_over bytes) code)

theorem bounded_expectEnd :
    Bounded bytes (Trial.ofAttempt expectEnd : Trial (Desk H) Unit) expectEnd :=
  bounded_ofAttempt (keepsScanner_expectEnd (Scanner.inline_over bytes))

/-- A name that begins with a letter is a slice of the bytes. -/
theorem boundedAt_readName (aligned : desk.Over bytes)
    (letter : desk.scanner.current.isLetter = true) :
    BoundedAt bytes (checkedReadName bytes) readName desk := by
  have slice := Scanner.checkedName_eq aligned (.refl desk.scanner) letter
  rw [Scanner.readName_apply] at slice
  have read : readName desk =
      (if maxNameLength < desk.scanner.nameAhead.2 then (.error .syntaxError, desk)
        else (.ok (desk.scanner.rest.take desk.scanner.nameAhead.2, desk.scanner.nameAhead.1),
          desk)) := by
    rw [readName, Attempt.bind_apply, Attempt.get_apply]
    dsimp only
    rw [Attempt.bind_apply, scanning, Attempt.within_apply, Scanner.readName_apply]
    by_cases long : maxNameLength < desk.scanner.nameAhead.2
    · simp only [if_pos long]
    · simp only [if_neg long]
      rfl
  constructor
  · rw [Succeeds, checkedReadName, Trial.bind_apply, Trial.get_apply]
    dsimp only [Option.bind_some]
    rw [Trial.bind_apply, Trial.lift_apply, slice, read]
    split <;> rfl
  · rw [read]
    split <;> exact aligned

end Desk
end HomeBasic
