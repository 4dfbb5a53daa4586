import HomeBasic.Proofs.Attempt.Repeats
import HomeBasic.Proofs.Desk.Lasting

/-!
# Loops that end inside their line

However a step ends that reads something, it has passed over codes of its line only, and over
one at least if it ended well (`Passes`). A loop is inline if every turn of it stays within the
line and takes up a code of it before another turn (`EndsInline`). The codes that are left then
bound its turns, so that it ends by itself.

Main statements: what passes over a code still does so if the rest stays within the line
(`Passes.bind`), and a loop with more turns than there are codes left comes to what it does
without a bound (`endsInline_of_turns`).
-/

namespace HomeBasic

open Attempt (Meets)

namespace Scanner

/-- From a place a scanner was moved on over codes of its line, and over one at least. -/
def Precedes (start later : Scanner) : Prop :=
  later.Follows start ∧ start.position < later.position

variable {later middle earlier : Scanner}

theorem Precedes.trans_follows (second : middle.Precedes later) (first : middle.Follows earlier) :
    earlier.Precedes later :=
  ⟨second.1.trans first, Nat.lt_of_le_of_lt first.position_le second.2⟩

theorem Follows.trans_precedes (second : later.Follows middle) (first : earlier.Precedes middle) :
    earlier.Precedes later :=
  ⟨second.trans first.1, Nat.lt_of_lt_of_le first.2 second.position_le⟩

theorem Precedes.codesLeft_lt (precedes : earlier.Precedes later) :
    later.codesLeft < earlier.codesLeft := by
  obtain ⟨⟨count, inside, position, rest⟩, further⟩ := precedes
  rw [Follows.codesLeft_eq inside rest]
  omega

theorem inline_precedes (start : Scanner) : Inline start.Precedes :=
  ⟨fun inside precedes => (Follows.of_pass inside).trans_precedes precedes,
    fun precedes => (follows_noteCursor _).trans_precedes precedes⟩

end Scanner

namespace Desk

variable {H α β : Type} {start : Scanner} {desk : Desk H}

/-! ## Passing over a code -/

/-- However a step ends, it is within the line that a scanner started on; and it is over a code
at least if it ends well. -/
def Passes (start : Scanner) (step : Attempt (Desk H) α) (desk : Desk H) : Prop :=
  Meets (fun _ later => start.Precedes later.scanner) (fun _ later => later.scanner.Follows start)
    (step desk)

/-- What was passed over already stays passed. -/
theorem passes_of_precedes {step : Attempt (Desk H) α} (precedes : start.Precedes desk.scanner)
    (keeps : KeepsScanner start.Precedes step) : Passes start step desk := by
  have kept := keeps desk precedes
  unfold Passes
  generalize step desk = outcome at kept ⊢
  rcases outcome with ⟨fault | value, later⟩
  · exact kept.1
  · exact kept.2

theorem Passes.bind {step : Attempt (Desk H) α} {next : α → Attempt (Desk H) β}
    (first : Passes start step desk)
    (rest : ∀ value, KeepsScanner start.Precedes (next value)) :
    Passes start (step >>= next) desk :=
  Meets.bind first fun value _ precedes => passes_of_precedes precedes (rest value)

/-- What a step comes to may be passed over after one that stays within the line. -/
theorem meets_bind {after : β → Desk H → Prop} {step : Attempt (Desk H) α}
    {next : α → Attempt (Desk H) β} (follows : desk.scanner.Follows start)
    (first : KeepsScanner (·.Follows start) step)
    (rest : ∀ value later, later.scanner.Follows start → step desk = (.ok value, later) →
      Meets after (fun _ later => later.scanner.Follows start) (next value later)) :
    Meets after (fun _ later => later.scanner.Follows start) ((step >>= next) desk) := by
  have kept := first desk follows
  rw [Attempt.bind_apply]
  rcases run : step desk with ⟨fault | value, later⟩
  · rwa [run] at kept
  · rw [run] at kept
    exact rest value later kept.2 run

theorem Consumes.passes {step : Attempt (Desk H) α} (consumes : Consumes step desk)
    (follows : desk.scanner.Follows start) : Passes start step desk := by
  unfold Consumes at consumes
  unfold Passes
  generalize step desk = outcome at consumes ⊢
  rcases outcome with ⟨fault | value, later⟩
  · exact consumes.follows.trans follows
  · have further := consumes.follows.position_lt consumes.shorter
    exact Scanner.Precedes.trans_follows ⟨consumes.follows, further⟩ follows

theorem Passes.restoring {step : Attempt (Desk H) α} (passes : Passes start step desk) :
    Passes start (restoring step) desk := by
  unfold Passes Desk.restoring at *
  generalize step desk = outcome at passes ⊢
  rcases outcome with ⟨fault | value, later⟩
  · exact passes
  · exact passes

theorem passes_throw (follows : desk.scanner.Follows start) (fault : Fault) :
    Passes start (throw fault : Attempt (Desk H) α) desk :=
  follows

/-! ## Loops -/

/-- However a turn ends, it is within the line that a scanner started on; and it is over a code at
least if another turn is taken. -/
def Proceeds (start : Scanner) (turn : Attempt (Desk H) (β ⊕ α)) (desk : Desk H) : Prop :=
  Meets
    (fun outcome later =>
      match outcome with
      | .inl _ => start.Precedes later.scanner
      | .inr _ => later.scanner.Follows start)
    (fun _ later => later.scanner.Follows start) (turn desk)

theorem Passes.proceeds {turn : Attempt (Desk H) (β ⊕ α)} (passes : Passes start turn desk) :
    Proceeds start turn desk := by
  unfold Passes at passes
  unfold Proceeds
  generalize turn desk = outcome at passes ⊢
  rcases outcome with ⟨fault | next | value, later⟩
  · exact passes
  · exact passes
  · exact passes.1

/-- A loop ends inside its line: every turn stays within the line, and takes up a code of it before
another one, and repeating the turn comes to what the loop does. -/
structure EndsInline (turn : β → Attempt (Desk H) (β ⊕ α)) (loop : β → Attempt (Desk H) α) :
    Prop where
  proceeds (state : β) (desk : Desk H) : Proceeds desk.scanner (turn state) desk
  ends (state : β) (desk : Desk H) :
    Repeats (Attempt.turn turn) (state, desk) (loop state desk)

/-- More turns than there are codes behind a place are enough for a loop. -/
theorem endsInline_of_turns {turn : β → Attempt (Desk H) (β ⊕ α)}
    (bounded : Nat → β → Attempt (Desk H) α)
    (succ : ∀ turns state,
      bounded (turns + 1) state = turn state >>= Attempt.after (bounded turns))
    (proceeds : ∀ state desk, Proceeds desk.scanner (turn state) desk) :
    EndsInline turn fun state desk => bounded (desk.scanner.rest.length + 1) state desk where
  proceeds := proceeds
  ends state desk := by
    refine Attempt.repeats_of_measure bounded (fun _ desk => desk.scanner.codesLeft + 1)
      (fun _ _ => nofun) (fun turns state desk => congrFun (succ turns state) desk)
      (fun state desk next later run => ?_) state desk
      (Nat.succ_le_succ desk.scanner.codesLeft_le_length)
    have precedes := proceeds state desk
    rw [Proceeds, run] at precedes
    exact Nat.succ_lt_succ (Scanner.Precedes.codesLeft_lt precedes)

end Desk
end HomeBasic
