import HomeBasic.Desk
import HomeBasic.Proofs.Scanner.Movement

/-!
# Steps that read on

Most steps at a desk leave the stack alone and move the scanner on within its line
(`Moves`). Those that read something take up a code of it when they end well
(`Consumes`), and this is what ends every recursion over a line.

Main statements: both are closed under one step after another (`Moves.bind`,
`Consumes.bind`), and the steps of the desk have them.
-/

namespace HomeBasic
namespace Desk

variable {H : Type} {α β : Type}

/-- A desk was reached from an earlier one by reading on, and with the same stack. -/
structure Ahead (later earlier : Desk H) : Prop where
  follows : later.scanner.Follows earlier.scanner
  calculator : later.calculator = earlier.calculator

/-- A desk was reached by reading on over a code at least. -/
structure Past (later earlier : Desk H) : Prop extends later.Ahead earlier where
  shorter : later.scanner.codesLeft < earlier.scanner.codesLeft

namespace Ahead

variable {later middle earlier : Desk H}

theorem refl (desk : Desk H) : desk.Ahead desk :=
  ⟨.refl _, rfl⟩

theorem trans (second : later.Ahead middle) (first : middle.Ahead earlier) :
    later.Ahead earlier :=
  ⟨second.follows.trans first.follows, second.calculator.trans first.calculator⟩

theorem trans_past (second : later.Ahead middle) (first : middle.Past earlier) :
    later.Past earlier :=
  ⟨second.trans first.toAhead, Nat.lt_of_le_of_lt second.follows.codesLeft_le first.shorter⟩

end Ahead

theorem Past.trans {later middle earlier : Desk H} (second : later.Past middle)
    (first : middle.Ahead earlier) : later.Past earlier :=
  ⟨second.toAhead.trans first, Nat.lt_of_lt_of_le second.shorter first.follows.codesLeft_le⟩

/-! ## Steps that move on -/

/-- A step reads on and leaves the stack alone. -/
def Moves (step : Attempt (Desk H) α) : Prop :=
  ∀ desk, (step desk).2.Ahead desk

/-- From a desk a step reads on, and over a code at least if it ends well. -/
def Consumes (step : Attempt (Desk H) α) (desk : Desk H) : Prop :=
  Attempt.Meets (fun _ later => later.Past desk) (fun _ later => later.Ahead desk) (step desk)

theorem Consumes.ahead {step : Attempt (Desk H) α} {desk : Desk H}
    (consumes : Consumes step desk) : (step desk).2.Ahead desk := by
  unfold Consumes at consumes
  generalize step desk = outcome at consumes ⊢
  rcases outcome with ⟨fault | value, later⟩
  · exact consumes
  · exact consumes.toAhead

theorem Consumes.past {step : Attempt (Desk H) α} {desk later : Desk H} {value : α}
    (consumes : Consumes step desk) (run : step desk = (.ok value, later)) :
    later.Past desk := by
  rw [Consumes, run] at consumes
  exact consumes

theorem Moves.ahead {step : Attempt (Desk H) α} {desk later : Desk H}
    {result : Except Fault α} (moves : Moves step) (run : step desk = (result, later)) :
    later.Ahead desk := by
  have reached := moves desk
  rwa [run] at reached

theorem Moves.bind {step : Attempt (Desk H) α} {next : α → Attempt (Desk H) β}
    (first : Moves step) (rest : ∀ value, Moves (next value)) : Moves (step >>= next) := by
  intro desk
  have reached := first desk
  rw [Attempt.bind_apply]
  generalize step desk = outcome at reached ⊢
  rcases outcome with ⟨fault | value, middle⟩
  · exact reached
  · exact (rest value middle).trans reached

theorem Consumes.bind {step : Attempt (Desk H) α} {next : α → Attempt (Desk H) β}
    {desk : Desk H} (first : Consumes step desk) (rest : ∀ value, Moves (next value)) :
    Consumes (step >>= next) desk := by
  unfold Consumes at first ⊢
  rw [Attempt.bind_apply]
  generalize step desk = outcome at first ⊢
  rcases outcome with ⟨fault | value, middle⟩
  · exact first
  · have reached := rest value middle
    dsimp only
    generalize next value middle = outcome at reached ⊢
    rcases outcome with ⟨fault | result, later⟩
    · exact (reached.trans_past first).toAhead
    · exact reached.trans_past first

theorem Moves.bind_consumes {step : Attempt (Desk H) α} {next : α → Attempt (Desk H) β}
    {desk : Desk H} (first : Moves step)
    (rest : ∀ value later, step desk = (.ok value, later) → Consumes (next value) later) :
    Consumes (step >>= next) desk := by
  have reached := first desk
  unfold Consumes at rest ⊢
  rw [Attempt.bind_apply]
  rcases run : step desk with ⟨fault | value, middle⟩
  · rwa [run] at reached
  · rw [run] at reached
    have further := rest value middle run
    dsimp only
    generalize next value middle = outcome at further ⊢
    rcases outcome with ⟨fault | result, later⟩
    · exact further.trans reached
    · exact Past.trans further reached

/-- Reading a name looks ahead and does not move. -/
theorem readName_apply (desk : Desk H) :
    readName desk =
      if maxNameLength < desk.scanner.nameAhead.2 then
        (.error .syntaxError, desk)
      else
        (.ok (desk.scanner.rest.take desk.scanner.nameAhead.2, desk.scanner.nameAhead.1),
          desk) := by
  simp only [readName, scanning, Attempt.bind_apply, Attempt.get_apply, Attempt.within_apply,
    Scanner.readName_apply]
  by_cases long : maxNameLength < desk.scanner.nameAhead.2
  · simp only [if_pos long]
  · simp only [if_neg long]
    rfl

/-! ## Steps that have no use for the stack -/

/-- Whatever is pending makes no difference to a step, and stays pending. -/
def Ignores (step : Attempt (Desk H) α) : Prop :=
  ∀ (desk : Desk H) (calculator : BoundedStack Pending),
    step { desk with calculator } = ((step desk).1, { (step desk).2 with calculator })

namespace Ignores

theorem bind {step : Attempt (Desk H) α} {next : α → Attempt (Desk H) β}
    (first : Ignores step) (rest : ∀ value, Ignores (next value)) :
    Ignores (step >>= next) := by
  intro desk calculator
  rw [Attempt.bind_apply, Attempt.bind_apply, first desk calculator]
  rcases step desk with ⟨fault | value, middle⟩
  · rfl
  · exact rest value middle calculator

theorem pure (value : α) : Ignores (Pure.pure value : Attempt (Desk H) α) :=
  fun _ _ => rfl

theorem throw (fault : Fault) : Ignores (MonadExcept.throw fault : Attempt (Desk H) α) :=
  fun _ _ => rfl

theorem ofExcept (result : Except Fault α) :
    Ignores (Attempt.ofExcept result : Attempt (Desk H) α) :=
  fun _ _ => rfl

theorem scanning (step : Attempt Scanner α) : Ignores (Desk.scanning step : Attempt (Desk H) α) :=
  fun _ _ => rfl

theorem consulting (step : Attempt H α) : Ignores (Desk.consulting step) :=
  fun _ _ => rfl

theorem readName : Ignores (Desk.readName : Attempt (Desk H) (Name × NameUse)) := by
  intro desk calculator
  rw [readName_apply, readName_apply]
  split <;> rfl

end Ignores


/-! ## The steps of the desk -/

theorem moves_pure (value : α) : Moves (pure value : Attempt (Desk H) α) :=
  .refl

theorem moves_throw (fault : Fault) : Moves (throw fault : Attempt (Desk H) α) :=
  .refl

theorem moves_ofExcept (result : Except Fault α) :
    Moves (Attempt.ofExcept result : Attempt (Desk H) α) :=
  .refl

theorem moves_consulting (step : Attempt H α) : Moves (consulting step) :=
  fun _ => ⟨.refl _, rfl⟩

theorem moves_look : Moves (look : Attempt (Desk H) Code) :=
  fun desk => ⟨desk.scanner.follows_look, rfl⟩

theorem moves_advance : Moves (advance : Attempt (Desk H) Unit) :=
  fun desk => ⟨desk.scanner.follows_advance, rfl⟩

theorem moves_skip (count : Nat) : Moves (skip count : Attempt (Desk H) Unit) :=
  fun desk => ⟨desk.scanner.follows_skip count, rfl⟩

theorem moves_readName : Moves (readName : Attempt (Desk H) (Name × NameUse)) := by
  intro desk
  rw [readName_apply]
  split <;> exact .refl desk

/-- What reading takes up at the scanner is taken up at the desk. -/
theorem consumes_scanning {step : Attempt Scanner α} {desk : Desk H}
    (reads : Scanner.Reads step desk.scanner) : Consumes (scanning step) desk := by
  unfold Scanner.Reads at reads
  unfold Consumes
  rw [scanning, Attempt.within_apply]
  generalize step desk.scanner = outcome at reads ⊢
  rcases outcome with ⟨fault | value, later⟩
  · exact ⟨reads, rfl⟩
  · exact ⟨⟨reads.1, rfl⟩, reads.2⟩

theorem consumes_expect {code : Code} (inLine : code ≠ Code.newline) (desk : Desk H) :
    Consumes (expect code) desk :=
  consumes_scanning (Scanner.reads_expect inLine desk.scanner)

theorem moves_expect {code : Code} (inLine : code ≠ Code.newline) :
    Moves (expect code : Attempt (Desk H) Unit) :=
  fun desk => (consumes_expect inLine desk).ahead

theorem consumes_advance {desk : Desk H} (more : desk.scanner.current ≠ Code.newline) :
    Consumes advance desk :=
  ⟨moves_advance desk, Scanner.codesLeft_advance_lt more⟩

theorem consumes_skip {count : Nat} {desk : Desk H} (some : 0 < count)
    (more : desk.scanner.current ≠ Code.newline) : Consumes (skip count) desk :=
  ⟨moves_skip count desk, Scanner.codesLeft_skip_lt some more⟩

end Desk
end HomeBasic
