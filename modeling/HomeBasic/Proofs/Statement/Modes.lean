import HomeBasic.Proofs.Expression.Modes
import HomeBasic.Proofs.Statement.Parallel

/-!
# Lines that check

A line is checked and then carried out, at another place, with other variables and on
another console. The execution keeps to the check as far as the check has gone well, so
it does not fail for how the line is written: only for what values come up, for a display
that is full, or for a `VAL` of a text that is no number.

Main statements: these are the only faults of a line that checks (`fails_of_checks`), and
such a line only fails with a syntax error where it fails with whatever `VAL` fails with
(`fails_of_val_line`). Two checks of one line agree (`checks_congr`).
-/

namespace HomeBasic

open Attempt (Confined Exits Related)

/-! ## Printing -/

namespace Printing

variable {H : Type} [Console H] {allowed : Fault → Prop} (full : allowed .displayFull)
include full

theorem confined_codes (codes : List Code) :
    Confined allowed (Printing.codes codes : Attempt H Unit) := by
  induction codes with
  | nil => exact Attempt.confined_pure _
  | cons first rest inductionHypothesis =>
      exact (Attempt.confined_orFault full).bind fun _ => inductionHypothesis

theorem confined_newline : Confined allowed (newline : Attempt H Unit) :=
  Attempt.confined_orFault full

theorem confined_padTo (column : Nat) : Confined allowed (padTo column : Attempt H Unit) :=
  Attempt.confined_get.bind fun _ => confined_codes full _

theorem confined_comma (width : Nat) : Confined allowed (comma width : Attempt H Unit) := by
  refine Attempt.confined_get.bind fun console => ?_
  split
  · exact confined_padTo full _
  · exact confined_newline full

theorem confined_tab (width : Nat) (column : Int) :
    Confined allowed (tab width column : Attempt H Unit) := by
  refine Attempt.confined_get.bind fun console => ?_
  dsimp only
  split
  · exact (confined_newline full).bind fun _ => confined_padTo full _
  · exact (Attempt.confined_pure _).bind fun _ => confined_padTo full _

theorem confined_moveTo (row column : Int) :
    Confined allowed (moveTo row column : Attempt H Unit) := by
  unfold moveTo
  split
  · exact Attempt.confined_orFault full
  · exact Attempt.confined_throw full

theorem confined_listings (listings : List (List Code)) :
    Confined allowed (Printing.listings listings : Attempt H Unit) := by
  induction listings with
  | nil => exact Attempt.confined_pure _
  | cons listing rest inductionHypothesis =>
      exact (confined_codes full listing).bind fun _ =>
        (confined_newline full).bind fun _ => inductionHypothesis

end Printing

namespace Statement

variable {H K : Type} [Console H] [Console K]

theorem confined_print {allowed : Fault → Prop} (full : allowed .displayFull) (width : Nat)
    (printed : Printed) : Confined allowed (printed.print width : Attempt H Unit) := by
  cases printed with
  | value shown => exact Printing.confined_codes full _
  | newline => exact Printing.confined_newline full
  | comma => exact Printing.confined_comma full width
  | tab column => exact Printing.confined_tab full width column
  | place row column => exact Printing.confined_moveTo full row column

/-! ## A check beside an execution -/

/-- The faults of a line that checks. -/
def Fails (environment : Environment) (fault : Fault) : Prop :=
  environment.Raises fault ∨ fault = .displayFull

/-- A check may fail as it likes, and an execution for its values and for the display. -/
def conforming (environment : Environment) : Exits where
  left _ := True
  right := Fails environment
  both _ _ := True

theorem parallel_modes {checking environment : Environment}
    (config : environment.config = checking.config) :
    Parallel ((Expression.typing H K environment).withExits (conforming environment)) checking
      environment .check .execute where
  toParallel := (Expression.parallel_modes config).widen
    ⟨fun _ _ => trivial, fun _ => .inl, fun _ _ _ => trivial⟩
  modes := .inr ⟨rfl, fun _ => trivial⟩
  exactly checks := by cases checks
  prints printed other _ := by
    intro console terminal _
    have failed : Confined (Fails environment)
        (other.print checking.config.width : Attempt K Unit) :=
      confined_print (.inr rfl) _ other
    have failed := failed terminal
    simp only [spoken]
    generalize other.print checking.config.width terminal = outcome at failed ⊢
    rcases outcome with ⟨fault | _, reached⟩
    · exact failed fault rfl
    · trivial

/-! ## Executions that differ in what `VAL` fails with -/

theorem parallel_failing (environment : Environment) (first second : Fault) :
    Parallel (Expression.tracing H first second) (Expression.failing environment first)
      (Expression.failing environment second) .execute .execute where
  toParallel := Expression.parallel_failing environment first second
  modes := .inl rfl
  exactly _ _ _ := id
  prints printed other same := by
    cases same rfl
    rintro console _ rfl
    generalize spoken .execute _ console = outcome
    rcases outcome with ⟨fault | _, reached⟩
    · exact .inl (Expression.both_tracing fault)
    · rfl

/-! ## Two checks -/

/-- Checks of one line do the same, whatever they are given. -/
def checking (H K : Type) : Expression.Pairing H K where
  toExits := .same
  Alike := Eq
  Meet _ _ := True

theorem parallel_checking {first second : Environment} (config : second.config = first.config) :
    Parallel (checking H K) first second .check .check where
  config := config
  both _ := rfl
  alike _ := rfl
  isText _ _ alike := congrArg Value.isText alike.symm
  fetched name use left right alike := by
    cases alike
    have same : Expression.fetched second name left .check use =
        Expression.fetched first name left .check use := by
      cases use <;> rfl
    rw [same]
    exact Exits.results_refl (fun _ => rfl) (fun _ => rfl) _
  reply function left right alike _ := fun _ _ _ => ⟨rfl, trivial⟩
  fold pending waiting left right alikePending alike := by
    cases alike
    rw [alikePending.eq fun _ _ => id]
    have same : Expression.fold second .check pending left =
        Expression.fold first .check pending left := by
      obtain ⟨value, operator, priority⟩ := pending
      cases value <;> cases left <;> rfl
    rw [same]
    exact Exits.results_refl (fun _ => rfl) (fun _ => rfl) _
  modes := .inl rfl
  exactly checks := by cases checks
  prints _ _ _ := fun _ _ _ => trivial

/-! ## Lines -/

/-- Two desks with the same codes left of their lines, and with the same pending. -/
structure SameLine (desk : Desk H) (opposite : Desk K) : Prop where
  line : opposite.scanner.line = desk.scanner.line
  calculator : opposite.calculator = desk.calculator

omit [Console H] [Console K] in
theorem SameLine.along {desk : Desk H} {opposite : Desk K} (same : SameLine desk opposite)
    {pairing : Expression.Pairing H K} (alike : ∀ value, pairing.Alike value value)
    (meet : pairing.Meet desk.console opposite.console) :
    pairing.Along False desk.scanner.line.length desk opposite where
  scanner := ⟨same.line, Nat.le_refl _⟩
  same := False.elim
  capacity := by rw [same.calculator]
  pending := by
    rw [same.calculator]
    exact List.forall₂_same.mpr fun _ _ => ⟨alike _, rfl, rfl⟩
  console := meet

section
variable {desk : Desk H} {opposite : Desk K}

/-- Whether a line checks depends on its codes alone. -/
theorem checks_congr {first second : Environment} (same : SameLine desk opposite)
    (config : second.config = first.config) :
    (∃ found, (line second .check opposite).1 = .ok found) ↔
      ∃ found, (line first .check desk).1 = .ok found := by
  have parallel : Parallel (checking H K) first second .check .check := parallel_checking config
  have together := related_line parallel desk opposite (same.along parallel.alike trivial)
  unfold Attempt.Together at together
  generalize (line first .check desk).1 = outcome at together ⊢
  generalize (line second .check opposite).1 = arrival at together ⊢
  cases outcome <;> cases arrival
  · simp
  · exact together.elim
  · exact together.elim
  · simp

/-- A line that checks only fails for its values, or for a full display. -/
theorem fails_of_checks {checking environment : Environment} {found : Option Command}
    {fault : Fault} (same : SameLine desk opposite)
    (config : environment.config = checking.config)
    (checked : (line checking .check desk).1 = .ok found)
    (failed : (line environment .execute opposite).1 = .error fault) :
    Fails environment fault := by
  have parallel : Parallel ((Expression.typing H K environment).withExits (conforming environment))
      checking environment .check .execute := parallel_modes config
  have together := related_line parallel desk opposite (same.along parallel.alike trivial)
  unfold Attempt.Together at together
  rw [checked, failed] at together
  exact together

/-- A line that checks and is at fault with the syntax fails with whatever `VAL` fails with. -/
theorem fails_of_val_line {checking environment : Environment} {found : Option Command}
    (same : SameLine desk opposite) (config : environment.config = checking.config)
    (checked : (line checking .check desk).1 = .ok found)
    (failed : (line (Expression.failing environment .syntaxError) .execute opposite).1 =
      .error .syntaxError) (valFault : Fault) :
    (line (Expression.failing environment valFault) .execute opposite).1 = .error valFault := by
  have parallel : Parallel (Expression.tracing K .syntaxError valFault) _ _ .execute .execute :=
    parallel_failing environment .syntaxError valFault
  have alone : SameLine opposite opposite := ⟨rfl, rfl⟩
  have traced := related_line parallel opposite opposite (alone.along parallel.alike rfl)
  refine Expression.fails_of_traced traced failed fun ill => ?_
  have fails : Fails (Expression.failing environment valFault) .syntaxError :=
    fails_of_checks same config checked ill
  rcases fails with raised | never
  · cases raised
    rfl
  · cases never

end

end Statement
end HomeBasic
