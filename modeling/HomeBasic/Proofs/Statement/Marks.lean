import HomeBasic.Proofs.Attempt.Rules
import HomeBasic.Proofs.Screen.Page
import HomeBasic.Proofs.Statement.Parallel
import HomeBasic.Teletype

/-!
# What printing puts on the display

All that a `PRINT` prints at one go comes down to marks: codes, new lines and moves. Which marks
these are depends on the column where it is met, and the display takes them one by one, up to the
first that it refuses.

Of a console it is only asked how the column of its print position moves (`Console.Ruled`), as
long as it is in a state that it can come to.

Main statements: to print is to put down the marks (`print_eq_lay`), up to the first that is
refused (`put_eq_error_iff`), and it leads to the column that it was bound for (`column_lay`).
-/

namespace HomeBasic

open Attempt (Sustains)

/-! ## Numbers -/

namespace Decimal

theorem ofChar?_of_isDigit {character : Char} (digit : character.isDigit = true) :
    Code.ofChar? character = some (UInt8.ofNat (character.toNat - 0x20)) := by
  obtain ⟨lower, upper⟩ : 48 ≤ character.toNat ∧ character.toNat ≤ 57 := by
    simpa [Char.isDigit, UInt32.le_iff_toNat_le] using digit
  have every : ∀ digit : Fin 10, Code.ofChar? (Char.ofNat (digit.val + 48)) =
      some (UInt8.ofNat ((Char.ofNat (digit.val + 48)).toNat - 0x20)) := by
    decide
  have same : character = Char.ofNat (character.toNat - 48 + 48) := by
    rw [Nat.sub_add_cancel lower, Char.ofNat_toNat]
  rw [same]
  exact every ⟨character.toNat - 48, by omega⟩

theorem digits_eq_encode (number : Nat) : digits number = Code.encode (toString number) := by
  change _ = (String.ofList (Nat.toDigits 10 number)).toList.filterMap Code.ofChar?
  rw [String.toList_ofList, digits]
  refine (List.filterMap_eq_map_iff_forall_eq_some.mpr fun character member => ?_).symm
  exact ofChar?_of_isDigit (Nat.isDigit_of_mem_toDigits (by decide) (by decide) member)

/-- A number is printed as it is written, with no blanks around it. -/
theorem format_eq_encode (value : Int) : format value = Code.encode (toString value) := by
  cases value with
  | ofNat number => exact digits_eq_encode number
  | negSucc number =>
      have negative : toString (Int.negSucc number) = "-" ++ toString (number + 1) := rfl
      rw [format, if_pos (Int.negSucc_lt_zero number), Int.natAbs_negSucc, digits_eq_encode,
        negative, Code.encode, Code.encode, String.toList_append]
      rfl

end Decimal

/-! ## Consoles with columns -/

namespace Console

/-- The print position moves along lines of a width, as long as the console is sound. -/
structure Ruled {H : Type} [Console H] (width : Nat) (sound : H → Prop) : Prop where
  within : ∀ console, sound console → column console < width
  print? : ∀ code console changed, sound console → print? code console = some changed →
    sound changed ∧ column changed = (column console + 1) % width
  newline? : ∀ console changed, sound console → newline? console = some changed →
    sound changed ∧ column changed = 0
  moveTo? : ∀ row place console changed, sound console →
    moveTo? row place console = some changed → sound changed ∧ column changed = place
  random : ∀ largest console, sound console → sound (random largest console).2

end Console

namespace Screen

variable {screen changed : Screen} {code : Code}

theorem column_print? (placed : screen.Placed) (printed : screen.print? code = some changed) :
    changed.column = (screen.column + 1) % screen.width := by
  obtain rfl := print?_eq_some placed.column printed
  change (screen.place + 1) % screen.width = (screen.column + 1) % screen.width
  rw [place, Nat.add_assoc, Nat.mul_comm, Nat.mul_add_mod]

end Screen

/-- The display of a recorder has lines of its width. -/
theorem Recorder.ruled {S : Type} [SlotStore S] (width : Nat) :
    Console.Ruled width fun recorder : Recorder S =>
      recorder.screen.Placed ∧ recorder.screen.width = width where
  within recorder sound := by
    rw [← sound.2]
    exact sound.1.column
  print? code recorder changed sound printed := by
    obtain ⟨placed, rfl⟩ := sound
    obtain ⟨screen, shown, rfl⟩ := Option.map_eq_some_iff.mp printed
    exact ⟨⟨placed.print? shown, (Screen.size_of_print? shown).1⟩,
      Screen.column_print? placed shown⟩
  newline? recorder changed sound printed := by
    obtain ⟨placed, rfl⟩ := sound
    obtain ⟨screen, shown, rfl⟩ := Option.map_eq_some_iff.mp printed
    have placed := placed.newline? shown
    obtain ⟨-, rfl⟩ := Screen.newline?_eq_some shown
    exact ⟨⟨placed, rfl⟩, rfl⟩
  moveTo? row place recorder changed sound moved := by
    obtain ⟨placed, rfl⟩ := sound
    obtain ⟨screen, shown, rfl⟩ := Option.map_eq_some_iff.mp moved
    have placed := placed.moveTo? shown
    obtain ⟨-, rfl⟩ := Screen.moveTo?_eq_some shown
    exact ⟨⟨placed, rfl⟩, rfl⟩
  random _ _ sound := sound

/-! ## Marks -/

/-- A single thing that a display is asked for. -/
inductive Mark
  | code (code : Code)
  | newline
  | move (row column : Int)
  deriving DecidableEq, Repr

/-- Puts a mark down, unless the display refuses it. -/
def Mark.put? {H : Type} [Console H] : Mark → H → Option H
  | code shown => Console.print? shown
  | newline => Console.newline?
  | move row column => fun console =>
      if 0 ≤ row ∧ 0 ≤ column then Console.moveTo? row.toNat column.toNat console else none

namespace Printing

section
variable {H : Type} [Console H]

/-- Puts marks down one after the other, up to the first that is refused. -/
def put : List Mark → Attempt H Unit
  | [] => pure ()
  | mark :: rest => do
      Attempt.orFault .displayFull mark.put?
      put rest

theorem put_cons_apply (mark : Mark) (rest : List Mark) (console : H) :
    put (mark :: rest) console =
      match mark.put? console with
      | some changed => put rest changed
      | none => (.error .displayFull, console) := by
  rw [put, Attempt.bind_apply, Attempt.orFault]
  cases mark.put? console <;> rfl

theorem put_append (front back : List Mark) (console : H) :
    put (front ++ back) console = (put front >>= fun _ => put back) console := by
  induction front generalizing console with
  | nil => rfl
  | cons mark front inductionHypothesis =>
      rw [List.cons_append, put_cons_apply, Attempt.bind_apply, put_cons_apply]
      cases mark.put? console with
      | none => rfl
      | some changed =>
          dsimp only
          rw [inductionHypothesis, Attempt.bind_apply]

/-- Marks fail only with a full display, at a mark that is refused when those in front of it are
put down; these stay, and nothing is put down behind them. -/
theorem put_eq_error_iff {marks : List Mark} {console reached : H} {fault : Fault} :
    put marks console = (.error fault, reached) ↔
      fault = .displayFull ∧ ∃ front mark back, marks = front ++ mark :: back ∧
        put front console = (.ok (), reached) ∧ mark.put? reached = none := by
  constructor
  · intro failed
    induction marks generalizing console with
    | nil => cases failed
    | cons mark rest inductionHypothesis =>
        rw [put_cons_apply] at failed
        cases shown : mark.put? console with
        | none =>
            rw [shown] at failed
            cases failed
            exact ⟨rfl, [], mark, rest, rfl, rfl, shown⟩
        | some changed =>
            rw [shown] at failed
            obtain ⟨full, front, last, back, rfl, done, refused⟩ := inductionHypothesis failed
            refine ⟨full, mark :: front, last, back, rfl, ?_, refused⟩
            rw [put_cons_apply, shown]
            exact done
  · rintro ⟨rfl, front, mark, back, rfl, done, refused⟩
    rw [put_append, Attempt.bind_apply, done]
    dsimp only
    rw [put_cons_apply, refused]

theorem codes_eq_put (codes : List Code) :
    (Printing.codes codes : Attempt H Unit) = put (codes.map .code) := by
  induction codes with
  | nil => rfl
  | cons first rest inductionHypothesis =>
      rw [Printing.codes, inductionHypothesis]
      rfl

theorem newline_eq_put : (Printing.newline : Attempt H Unit) = put [.newline] := by
  funext console
  rw [put_cons_apply, Printing.newline, Attempt.orFault]
  rfl

theorem moveTo_eq_put (row column : Int) :
    (Printing.moveTo row column : Attempt H Unit) = put [.move row column] := by
  funext console
  rw [put_cons_apply, Mark.put?, Printing.moveTo]
  dsimp only
  split
  · rfl
  · rfl

end

/-! ## Columns -/

section
variable {H : Type} [Console H] {width : Nat} {sound : H → Prop} {console reached : H}
  (ruled : Console.Ruled width sound)
include ruled

theorem sound_put? {mark : Mark} (start : sound console)
    (shown : mark.put? console = some reached) :
    sound reached := by
  cases mark with
  | code shown' => exact (ruled.print? _ _ _ start shown).1
  | newline => exact (ruled.newline? _ _ start shown).1
  | move row column =>
      rw [Mark.put?] at shown
      split at shown
      next => exact (ruled.moveTo? _ _ _ _ start shown).1
      next => cases shown

theorem sustains_put (marks : List Mark) : Sustains sound (put marks) fun _ => True := by
  induction marks with
  | nil => exact Attempt.sustains_pure trivial
  | cons mark rest inductionHypothesis =>
      exact (Attempt.sustains_orFault fun _ _ => sound_put? ruled).bind fun _ _ =>
        inductionHypothesis

/-- Codes move the print position on along its line and to the ones below it. -/
theorem column_put_codes (codes : List Code) (start : sound console)
    (done : put (codes.map .code) console = (.ok (), reached)) :
    Console.column reached = (Console.column console + codes.length) % width := by
  induction codes generalizing console with
  | nil =>
      cases done
      exact (Nat.mod_eq_of_lt (ruled.within _ start)).symm
  | cons code codes inductionHypothesis =>
      rw [List.map_cons, put_cons_apply] at done
      cases shown : (Mark.code code).put? console with
      | none =>
          rw [shown] at done
          cases done
      | some changed =>
          rw [shown] at done
          obtain ⟨sound, column⟩ := ruled.print? _ _ _ start shown
          rw [inductionHypothesis sound done, column, List.length_cons, Nat.mod_add_mod]
          congr 1
          omega

end
end Printing

namespace Statement

open Printing (put)

/-! ## What is printed at one go -/

/-- So many blanks. -/
def blanks (count : Nat) : List Mark :=
  List.replicate count (.code Code.space)

theorem blanks_eq_map (count : Nat) : blanks count = (List.replicate count Code.space).map .code :=
  List.map_replicate.symm

namespace Printed

/-- The marks that it comes to where it is met at a column of lines of a width. -/
def marks (width column : Nat) : Printed → List Mark
  | value (.number number) => (Code.encode (toString number)).map .code
  | value (.text codes) => codes.map .code
  | newline => [.newline]
  | comma => if column < width / 2 then blanks (width / 2 - column) else [.newline]
  | tab number =>
      let goal := (number % width).toNat
      if column ≤ goal then blanks (goal - column) else .newline :: blanks goal
  | place row column => [.move row column]

/-- The column that it leads to from a column of lines of a width. -/
def goal (width column : Nat) : Printed → Nat
  | value shown => (column + shown.printed.length) % width
  | newline => 0
  | comma => if column < width / 2 then width / 2 else 0
  | tab number => (number % width).toNat
  | place _ column => column.toNat

end Printed

section
variable {H : Type} [Console H]

/-- Prints at one go by putting marks down. -/
def lay (width : Nat) (printed : Printed) : Attempt H Unit := do
  put (printed.marks width (Console.column (← get)))

theorem lay_apply (width : Nat) (printed : Printed) (console : H) :
    lay width printed console = put (printed.marks width (Console.column console)) console := rfl

theorem marks_value (width column : Nat) (shown : Value) :
    (Printed.value shown).marks width column = shown.printed.map .code := by
  cases shown with
  | number number => rw [Printed.marks, Value.printed, Decimal.format_eq_encode]
  | text codes => rfl

theorem padTo_apply (goal : Nat) (console : H) :
    Printing.padTo goal console = put (blanks (goal - Console.column console)) console := by
  rw [blanks_eq_map, ← Printing.codes_eq_put]
  rfl

/--
What is printed at one go leads to the column that it is meant for. Or the display is full, at a
mark that it refuses: the marks in front of that one are put down, and nothing more is.
-/
structure Printed.Lands (width : Nat) (printed : Printed) (console : H) : Prop where
  column : ∀ reached, lay width printed console = (.ok (), reached) →
    Console.column reached = printed.goal width (Console.column console)
  cut : ∀ fault reached, lay width printed console = (.error fault, reached) →
    fault = .displayFull ∧ ∃ front mark back,
      printed.marks width (Console.column console) = front ++ mark :: back ∧
        put front console = (.ok (), reached) ∧ mark.put? reached = none

variable {width : Nat} {sound : H → Prop} {console reached : H}
  (ruled : Console.Ruled width sound)
include ruled

/-- To print is to put down the marks. -/
theorem print_eq_lay (printed : Printed) (start : sound console) :
    printed.print width console = lay width printed console := by
  rw [lay_apply]
  cases printed with
  | value shown =>
      rw [marks_value, ← Printing.codes_eq_put]
      rfl
  | newline => exact congrFun Printing.newline_eq_put console
  | comma =>
      rw [Printed.print, Printing.comma, Attempt.bind_apply, Attempt.get_apply, Printed.marks]
      dsimp only
      split
      · exact padTo_apply _ _
      · exact congrFun Printing.newline_eq_put console
  | tab number =>
      rw [Printed.print, Printing.tab, Attempt.bind_apply, Attempt.get_apply, Printed.marks]
      dsimp only
      by_cases ahead : Console.column console ≤ (number % width).toNat
      · rw [if_neg (Nat.not_lt.mpr ahead), if_pos ahead]
        exact padTo_apply _ _
      · rw [if_pos (Nat.lt_of_not_le ahead), if_neg ahead, Attempt.bind_apply,
          Printing.newline_eq_put, Printing.put_cons_apply, Printing.put_cons_apply]
        cases shown : Mark.newline.put? console with
        | none => rfl
        | some changed =>
            change Printing.padTo _ changed = _
            rw [padTo_apply, (ruled.newline? _ _ start shown).2, Nat.sub_zero]
  | place row column => exact congrFun (Printing.moveTo_eq_put row column) console

theorem sustains_lay (printed : Printed) : Sustains sound (lay width printed) fun _ => True :=
  Attempt.sustains_get.bind fun _ _ => Printing.sustains_put ruled _

theorem column_put_blanks {count : Nat} (start : sound console)
    (inside : Console.column console + count < width)
    (done : put (blanks count) console = (.ok (), reached)) :
    Console.column reached = Console.column console + count := by
  rw [blanks_eq_map] at done
  rw [Printing.column_put_codes ruled _ start done, List.length_replicate, Nat.mod_eq_of_lt inside]

theorem column_put_newline_cons {rest : List Mark} (start : sound console)
    (done : put (.newline :: rest) console = (.ok (), reached)) :
    ∃ changed, sound changed ∧ Console.column changed = 0 ∧
      put rest changed = (.ok (), reached) := by
  rw [Printing.put_cons_apply] at done
  cases shown : Mark.newline.put? console with
  | none =>
      rw [shown] at done
      cases done
  | some changed =>
      rw [shown] at done
      obtain ⟨sound, column⟩ := ruled.newline? _ _ start shown
      exact ⟨changed, sound, column, done⟩

/-- What is printed leads to the column that it was meant for. -/
theorem column_lay (printed : Printed) (start : sound console)
    (done : lay width printed console = (.ok (), reached)) :
    Console.column reached = printed.goal width (Console.column console) := by
  have within := ruled.within _ start
  rw [lay_apply] at done
  cases printed with
  | value shown =>
      rw [marks_value] at done
      exact Printing.column_put_codes ruled _ start done
  | newline =>
      obtain ⟨changed, _, column, done⟩ := column_put_newline_cons ruled start done
      cases done
      exact column
  | comma =>
      rw [Printed.marks] at done
      rw [Printed.goal]
      split at done
      next early =>
        rw [if_pos early, column_put_blanks ruled start (by omega) done]
        omega
      next late =>
        obtain ⟨changed, _, column, done⟩ := column_put_newline_cons ruled start done
        cases done
        rw [if_neg late, column]
  | tab number =>
      have goal : (number % width).toNat < width := by
        have upper := Int.emod_lt_of_pos number (show 0 < (width : Int) by omega)
        omega
      rw [Printed.marks] at done
      rw [Printed.goal]
      split at done
      next ahead =>
        rw [column_put_blanks ruled start (by omega) done]
        omega
      next =>
        obtain ⟨changed, sound, column, done⟩ := column_put_newline_cons ruled start done
        rw [column_put_blanks ruled sound (by omega) done, column, Nat.zero_add]
  | place row column =>
      rw [Printed.marks, Printing.put_cons_apply, Mark.put?] at done
      split at done
      next changed shown =>
        cases done
        split at shown
        next => exact (ruled.moveTo? _ _ _ _ start shown).2
        next => cases shown
      next => cases done

/-- Either all that is printed at one go is put down, or a full display cuts it short. -/
theorem lands (printed : Printed) (start : sound console) : printed.Lands width console where
  column _ done := column_lay ruled printed start done
  cut _ _ failed := Printing.put_eq_error_iff.mp failed

end
end Statement
end HomeBasic
