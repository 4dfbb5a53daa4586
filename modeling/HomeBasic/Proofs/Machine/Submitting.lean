import HomeBasic.Machine.Editor

/-!
# What enter does with the edit line

Enter lists the program for a blank line. Any other line is checked: it is refused, it is
carried out, or it is stored under its number, for which there may be no room.

Main statement: there is nothing else that enter does (`submitted`).
-/

namespace HomeBasic
namespace Machine

variable {H : Type} [Console H]

/-- The statement that enter cuts out of the edit line. -/
def typedStatement (machine : Machine H) : List Code :=
  machine.edit.refresh.statement (machine.edit.refresh.check machine.config)

/-- The machine once enter has had its edit line checked. -/
def examined (machine : Machine H) : Machine H :=
  { machine with
    edit := machine.edit.refresh
    glyph := (machine.edit.refresh.check machine.config).glyph }

/-- What may come of the edit line: whether it is taken, and the machine afterwards. -/
inductive Submitted (machine : Machine H) : Bool × Machine H → Prop
  | blank (blank : machine.edit.isBlank = true) : Submitted machine (true, machine.submitBlank)
  | refused {fault : Fault × Nat}
      (result : (machine.edit.refresh.check machine.config).result = .error fault) :
      Submitted machine (false, machine.examined.refreshEdit)
  | direct (result : (machine.edit.refresh.check machine.config).result = .ok 0) :
      Submitted machine (true, machine.examined.submitDirect machine.typedStatement)
  | full {number : Nat} {fault : Fault} (numbered : number ≠ 0)
      (result : (machine.edit.refresh.check machine.config).result = .ok number)
      (run : machine.program.insert number machine.typedStatement = .error fault) :
      Submitted machine (false, (machine.examined.report fault.reportChar 0).refreshEdit)
  | stored {number : Nat} {program : Program} (numbered : number ≠ 0)
      (result : (machine.edit.refresh.check machine.config).result = .ok number)
      (run : machine.program.insert number machine.typedStatement = .ok program) :
      Submitted machine (true, refreshEdit
        { machine.examined with
          program, edit := { machine.edit.refresh with current := number }.clear })

theorem submitted (machine : Machine H) : machine.Submitted (machine.press .enter) := by
  change machine.Submitted machine.submit
  unfold submit
  split
  next blank => exact .blank blank
  next =>
    dsimp only
    split
    next result => exact .refused result
    next result => exact .direct result
    next number numbered result =>
      unfold submitNumbered
      split
      next run => exact .stored numbered result run
      next run => exact .full numbered result run

end Machine
end HomeBasic
