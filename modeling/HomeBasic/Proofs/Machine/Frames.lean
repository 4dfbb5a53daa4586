import HomeBasic.Proofs.Line.Bounds
import HomeBasic.Proofs.Machine.Invariants
import HomeBasic.Proofs.Machine.Upkeep
import HomeBasic.Proofs.Variables.Loops

/-!
# What a step has nothing to do with

Much of what a step does to a machine is seen by few results: what is printed or poked, a jump
that is asked for, the time that a command takes. A relation between a machine before and after
that sees none of it is a frame (`Frame`). An inner frame sees nothing of how the machine goes on
or appears either (`InnerFrame`).

Main statements: a command keeps to a frame, if the frame sees nothing of what the command is
about (`Frame.keeps_perform`, `Frame.keeps_perform_of_not_forgets`), and a step keeps to an inner
frame if it carries out no line (`InnerFrame.advance`).
-/

namespace HomeBasic

open Attempt (Sustains)

theorem EditLine.Placed.editKey {edit : EditLine} (placed : edit.Placed) (key : Key) :
    (Machine.editKey key edit).Placed := by
  cases key with
  | code code => exact placed.insert code
  | delete => exact placed.backspace
  | left => exact placed.left
  | right => exact placed.right
  | «break» => exact edit.placed_clear
  | up | down | enter => exact placed

namespace Command

/-- A command neither changes the program nor moves the `DATA` pointer. -/
def LeavesItems : Command → Prop
  | .run _ | .new | .clear | .load _ | .read _ | .restore _ => False
  | _ => True

/-- A command forgets all calls and loops. -/
def Forgets : Command → Prop
  | .run _ | .new | .clear | .load _ => True
  | _ => False

/-- A command that ends well changes no call and no loop. -/
def KeepsCourse : Command → Prop
  | .run _ | .new | .clear | .load _ | .gosub _ | .return | .loop .. => False
  | _ => True

theorem LeavesItems.not_forgets {command : Command} (leaves : command.LeavesItems) :
    ¬command.Forgets := by
  cases command with
  | run | new | clear | load => exact leaves.elim
  | _ => exact not_false

end Command

namespace Machine

variable {H α β : Type} {relation : Machine H → Machine H → Prop}

/-! ## Steps along a relation -/

/-- However a step ends, it leads along a relation. -/
abbrev Keeps (relation : Machine H → Machine H → Prop) (step : Attempt (Machine H) α) : Prop :=
  ∀ machine, Sustains (relation machine) step fun _ => True

theorem Keeps.bind {step : Attempt (Machine H) α} {next : α → Attempt (Machine H) β}
    (keeps : Keeps relation step) (rest : ∀ value, Keeps relation (next value)) :
    Keeps relation (step >>= next) :=
  fun machine => (keeps machine).bind fun value _ => rest value machine

theorem keeps_pure (value : α) : Keeps relation (pure value : Attempt (Machine H) α) :=
  fun _ => Attempt.sustains_pure trivial

theorem keeps_throw (fault : Fault) : Keeps relation (throw fault : Attempt (Machine H) α) :=
  fun _ => Attempt.sustains_throw fault

theorem keeps_ofExcept (result : Except Fault α) :
    Keeps relation (Attempt.ofExcept result : Attempt (Machine H) α) :=
  fun _ => Attempt.sustains_ofExcept fun _ _ => trivial

theorem keeps_get : Keeps relation (get : Attempt (Machine H) (Machine H)) :=
  fun _ => Attempt.sustains_get.weaken fun _ _ => trivial

/-! ## Frames -/

/-- A relation that sees nothing of the console, the memory and a jump that is asked for, of the
variables only where loops resume, and not that an entry or a pause begins. -/
structure Frame (relation : Machine H → Machine H → Prop) : Prop where
  refl (machine : Machine H) : relation machine machine
  trans {first second third : Machine H} :
    relation first second → relation second third → relation first third
  console (machine : Machine H) (console : H) : relation machine { machine with console }
  memory (machine : Machine H) (memory : Array Code) : relation machine { machine with memory }
  goto (machine : Machine H) (line : Nat) : relation machine (machine.goto line)
  loops (machine : Machine H) (variableStore : Variables) :
    variableStore.resume? = machine.variableStore.resume? →
      relation machine { machine with variableStore }
  entry (machine : Machine H) (target : Target) : machine.phase = .running →
    relation machine { machine with edit := machine.edit.clear, phase := .entering target }
  pause (machine : Machine H) (deadline : Nat) (sounding : Bool) :
    relation machine
      { machine with phase := .pausing deadline sounding (machine.phase = .running) }

namespace Frame

variable (frame : Frame relation)
include frame

theorem keeps_of_related {step : Attempt (Machine H) α}
    (related : ∀ machine, relation machine (step machine).2) : Keeps relation step :=
  fun _ => Attempt.sustains_of_kept fun machine start => frame.trans start (related machine)

theorem related {step : Attempt (Machine H) α} (keeps : Keeps relation step)
    (machine : Machine H) : relation machine (step machine).2 :=
  (keeps machine).kept (frame.refl machine)

theorem keeps_modify {change : Machine H → Machine H}
    (related : ∀ machine, relation machine (change machine)) :
    Keeps relation (modify change : Attempt (Machine H) PUnit) :=
  frame.keeps_of_related related

theorem keeps_onVariables {step : Attempt Variables α} (keeps : Variables.KeepsLoops step) :
    Keeps relation (onVariables step : Attempt (Machine H) α) :=
  frame.keeps_of_related fun machine =>
    frame.loops machine _ (keeps.resume?_eq machine.variableStore)

theorem ignoresConsole (first : Machine H) : IgnoresConsole (relation first) :=
  fun machine console kept => frame.trans kept (frame.console machine console)

theorem keeps_atDesk (scanner : Scanner) (step : Environment → Attempt (Desk H) α) :
    Keeps relation (atDesk scanner step) :=
  fun first => (frame.ignoresConsole first).atDesk scanner step

theorem keeps_goto (line : Nat) :
    Keeps relation (modify (Machine.goto line) : Attempt (Machine H) PUnit) :=
  frame.keeps_modify fun machine => frame.goto machine line

/-! ## Commands -/

theorem keeps_assign (target : Target) (value : Value) :
    Keeps relation (assign target value : Attempt (Machine H) Unit) := by
  unfold assign
  split
  · exact frame.keeps_onVariables (Variables.keepsLoops_assignNumber _ _)
  · exact frame.keeps_onVariables (Variables.keepsLoops_assignElement _ _ _)
  · exact frame.keeps_onVariables (Variables.keepsLoops_assignText _ _)
  · exact keeps_throw _

theorem keeps_startEntry (target : Target) :
    Keeps relation (startEntry target : Attempt (Machine H) Unit) := by
  refine fun _ => Attempt.sustains_get.bind fun machine kept =>
    Attempt.sustains_guard fun running => Attempt.sustains_set ?_
  exact frame.trans kept (frame.entry machine target (not_not.mp running))

theorem keeps_poke (address value : Int) :
    Keeps relation (poke address value : Attempt (Machine H) Unit) := by
  refine fun _ => Attempt.sustains_get.bind fun machine kept =>
    Attempt.sustains_guard fun _ => Attempt.sustains_guard fun _ => Attempt.sustains_set ?_
  exact frame.trans kept (frame.memory machine _)

variable [Console H]

theorem keeps_startPause (duration : Int) (sounding : Bool) :
    Keeps relation (startPause duration sounding : Attempt (Machine H) Unit) :=
  frame.keeps_modify fun machine => frame.pause machine _ sounding

section
variable (data : ∀ (machine : Machine H) (pointer : DataPointer),
  relation machine { machine with data := pointer })
include data

omit [Console H] in
theorem keeps_point (pointer : DataPointer) :
    Keeps relation (modify fun machine : Machine H => { machine with data := pointer }) :=
  frame.keeps_modify fun machine => data machine pointer

theorem keeps_nextItem (turns : Nat) :
    Keeps relation (nextItem turns : Attempt (Machine H) Value) := by
  induction turns with
  | zero => exact keeps_throw _
  | succ turns inductionHypothesis =>
      refine keeps_get.bind fun machine root => Attempt.sustains_guard fun _ => ?_
      dsimp only
      split
      · split
        · exact ((frame.keeps_point data _).bind fun _ => inductionHypothesis) root
        · exact ((frame.keeps_point data _).bind fun _ => inductionHypothesis) root
      · refine ((frame.keeps_atDesk _ _).bind fun item => ?_) root
        obtain ⟨value, further⟩ := item
        dsimp only
        split
        · exact (frame.keeps_point data _).bind fun _ => keeps_pure value
        · exact (frame.keeps_point data _).bind fun _ => keeps_pure value

theorem keeps_read (target : Target) :
    Keeps relation (read target : Attempt (Machine H) Unit) :=
  keeps_get.bind fun _ => (frame.keeps_nextItem data _).bind fun value root =>
    Attempt.sustains_guard fun _ => frame.keeps_assign target value root

end

/-- A command that changes no call and no loop keeps to every frame, if it leaves the items alone
or the frame does not see the pointer to them. -/
theorem keeps_perform {command : Command} (keeps : command.KeepsCourse)
    (data : ¬command.LeavesItems → ∀ (machine : Machine H) (pointer : DataPointer),
      relation machine { machine with data := pointer }) :
    Keeps relation (perform command : Attempt (Machine H) Unit) := by
  cases command with
  | run start | new | clear | load slot | gosub line | «return» | loop name start limit =>
      exact keeps.elim
  | list start => exact (keeps_ofExcept _).bind fun start first =>
      (frame.ignoresConsole first).list start
  | cont =>
      refine frame.keeps_modify fun machine => ?_
      split
      · exact frame.refl machine
      · exact frame.goto machine _
  | save slot => exact fun first => (frame.ignoresConsole first).save slot
  | assign target value => exact frame.keeps_assign target value
  | input target => exact frame.keeps_startEntry target
  | goto line => exact (keeps_ofExcept _).bind fun line => frame.keeps_goto line
  | next name =>
      refine (frame.keeps_onVariables (Variables.keepsLoops_stepLoop name)).bind fun resume => ?_
      cases resume with
      | none => exact keeps_pure _
      | some line => exact frame.keeps_goto line
  | stop => exact keeps_throw _
  | dimension name maxIndex =>
      exact frame.keeps_onVariables (Variables.keepsLoops_declareArray name maxIndex)
  | read target => exact frame.keeps_read (data id) target
  | restore line => exact (keeps_ofExcept _).bind fun line => frame.keeps_point (data id) _
  | poke address value => exact frame.keeps_poke address value
  | wait duration =>
      rw [perform]
      split
      · exact keeps_throw _
      · exact frame.keeps_startPause duration false
  | beep duration pitch =>
      rw [perform]
      split
      · exact keeps_throw _
      · exact fun first => ((frame.ignoresConsole first).tellConsole _).bind
          fun _ _ => frame.keeps_startPause duration true first
  | cls => exact fun first => (frame.ignoresConsole first).tellConsole _

theorem keeps_calls {command : Command} (calls : ¬command.KeepsCourse)
    (keeps : ¬command.Forgets)
    (returns : ∀ (machine : Machine H) (returns : BoundedStack Nat),
      relation machine { machine with returns })
    (variableStore : ∀ (machine : Machine H) (variableStore : Variables),
      relation machine { machine with variableStore }) :
    Keeps relation (perform command : Attempt (Machine H) Unit) := by
  have onVariables {α : Type} (step : Attempt Variables α) :
      Keeps relation (onVariables step : Attempt (Machine H) α) :=
    frame.keeps_of_related fun machine => variableStore machine _
  have jumps {first : Machine H} (machine : Machine H) (stack : BoundedStack Nat) (line : Nat)
      (kept : relation first machine) :
      relation first ({ machine with returns := stack }.goto line) :=
    frame.trans (frame.trans kept (returns machine stack)) (frame.goto _ line)
  cases command with
  | gosub line =>
      exact (keeps_ofExcept _).bind fun line first => Attempt.sustains_get.bind
        fun machine kept => (keeps_ofExcept _ first).bind
          fun stack _ => Attempt.sustains_set (jumps machine stack line kept)
  | «return» =>
      refine fun first => Attempt.sustains_get.bind fun machine kept => ?_
      split
      next line stack _ => exact Attempt.sustains_set (jumps machine stack line kept)
      · exact Attempt.sustains_throw _
  | loop name start limit =>
      exact (onVariables _).bind fun _ => keeps_get.bind fun _ => onVariables _
  | run | new | clear | load => exact absurd trivial keeps
  | _ => exact absurd trivial calls

/-- A command that does not forget calls and loops keeps to a frame that sees neither. -/
theorem keeps_perform_of_not_forgets {command : Command} (keeps : ¬command.Forgets)
    (data : ¬command.LeavesItems → ∀ (machine : Machine H) (pointer : DataPointer),
      relation machine { machine with data := pointer })
    (returns : ∀ (machine : Machine H) (returns : BoundedStack Nat),
      relation machine { machine with returns })
    (variableStore : ∀ (machine : Machine H) (variableStore : Variables),
      relation machine { machine with variableStore }) :
    Keeps relation (perform command : Attempt (Machine H) Unit) := by
  by_cases calls : command.KeepsCourse
  · exact frame.keeps_perform calls data
  · exact frame.keeps_calls calls keeps returns variableStore

end Frame

/-! ## Steps -/

/-- Two machines differ at most in how they go on and how they appear, and the cursor stays within
the text of the edit line. -/
structure Aside (first second : Machine H) : Prop where
  config : second.config = first.config
  program : second.program = first.program
  variableStore : second.variableStore = first.variableStore
  memory : second.memory = first.memory
  returns : second.returns = first.returns
  data : second.data = first.data
  line : second.line = first.line
  cursor : first.edit.Placed → second.edit.Placed

theorem placed_refreshEdit [Console H] {machine : Machine H} (placed : machine.edit.Placed) :
    machine.refreshEdit.edit.Placed := by
  unfold refreshEdit
  dsimp only
  split <;> exact placed

section
variable [Console H]

theorem aside_conclude (inProgram : Bool) (outcome : Except Fault Unit) (machine : Machine H) :
    Aside machine (machine.conclude inProgram outcome) := by
  unfold Machine.conclude
  dsimp only
  split
  all_goals
    exact ⟨rfl, rfl, rfl, rfl, rfl, rfl, rfl,
      fun _ => placed_refreshEdit machine.edit.placed_clear⟩

theorem aside_lineDone (inProgram : Bool) (machine : Machine H) :
    Aside machine (machine.lineDone inProgram) := by
  unfold Machine.lineDone
  dsimp only
  split
  · split
    · exact { aside_conclude true _ _ with }
    · exact ⟨rfl, rfl, rfl, rfl, rfl, rfl, rfl, id⟩
  · split
    · exact ⟨rfl, rfl, rfl, rfl, rfl, rfl, rfl, id⟩
    · exact aside_conclude _ _ _

/-- Going on after a step leaves the stores as they are. -/
theorem aside_proceed (inProgram : Bool) (outcome : Except Fault Unit × Machine H) :
    Aside outcome.2 (Machine.proceed inProgram outcome) := by
  rcases outcome with ⟨fault | _, changed⟩
  · exact aside_conclude _ _ _
  · unfold Machine.proceed
    dsimp only
    split
    · exact ⟨rfl, rfl, rfl, rfl, rfl, rfl, rfl, id⟩
    · exact ⟨rfl, rfl, rfl, rfl, rfl, rfl, rfl, id⟩
    · exact aside_lineDone inProgram changed

end

/-- A frame that sees nothing of how a machine goes on and how it appears. -/
structure InnerFrame (relation : Machine H → Machine H → Prop) : Prop
    extends Frame relation where
  aside {first second : Machine H} : Aside first second → relation first second

namespace InnerFrame

variable (frame : InnerFrame relation) (machine : Machine H)
include frame

variable [Console H]

theorem conclude (inProgram : Bool) (outcome : Except Fault Unit) :
    relation machine (machine.conclude inProgram outcome) :=
  frame.aside (aside_conclude inProgram outcome machine)

theorem lineDone (inProgram : Bool) : relation machine (machine.lineDone inProgram) :=
  frame.aside (aside_lineDone inProgram machine)

omit machine in
theorem proceed (inProgram : Bool) (outcome : Except Fault Unit × Machine H) :
    relation outcome.2 (Machine.proceed inProgram outcome) :=
  frame.aside (aside_proceed inProgram outcome)

theorem takeEntry (isText : Bool) : relation machine (machine.takeEntry isText).2 := by
  refine frame.aside ?_
  unfold Machine.takeEntry
  dsimp only
  cases isText with
  | true =>
      rw [if_pos rfl]
      split <;> exact ⟨rfl, rfl, rfl, rfl, rfl, rfl, rfl, id⟩
  | false =>
      rw [if_neg (by decide)]
      have read : Aside machine (atDesk (.ofBytes machine.edit.refresh.bytes 0) entryNumber
          { machine with edit := machine.edit.refresh }).2 :=
        ⟨rfl, rfl, rfl, rfl, rfl, rfl, rfl, id⟩
      split
      all_goals
        next run =>
          rw [run] at read
          exact { read with }

theorem endEntry : relation machine machine.endEntry :=
  frame.aside ⟨rfl, rfl, rfl, rfl, rfl, rfl, rfl, fun _ => machine.edit.placed_clear⟩

theorem advanceEntry (target : Target) : relation machine (machine.advanceEntry target) := by
  unfold Machine.advanceEntry
  dsimp only
  have shown : relation machine { machine.showEdit .letter with
      console := (Console.nextKey (machine.showEdit .letter).console).2 } :=
    frame.aside ⟨rfl, rfl, rfl, rfl, rfl, rfl, rfl, id⟩
  have ended {changed : Machine H} (kept : relation machine changed) :
      relation machine changed.endEntry := frame.trans kept (frame.endEntry changed)
  split
  · exact frame.trans (ended shown) (frame.conclude _ _ _)
  · exact frame.trans (ended shown) (frame.conclude _ _ _)
  · have taken := frame.trans shown (frame.takeEntry _ target.isText)
    split
    next run =>
      rw [run] at taken
      exact frame.trans (frame.trans (ended taken) (frame.related (frame.keeps_assign target _) _))
        (frame.proceed true _)
    next run =>
      rw [run] at taken
      exact taken
    next run =>
      rw [run] at taken
      exact frame.trans (ended taken) (frame.conclude _ _ _)
  · exact shown
  · exact shown
  · exact frame.aside ⟨rfl, rfl, rfl, rfl, rfl, rfl, rfl, fun placed => placed.editKey _⟩

theorem endPause (sounding : Bool) : relation machine (machine.endPause sounding) := by
  unfold Machine.endPause
  split
  · exact frame.console machine _
  · exact frame.refl machine

theorem advancePause (deadline : Nat) (sounding inProgram : Bool) :
    relation machine (machine.advancePause deadline sounding inProgram) := by
  have looked := frame.console machine (Console.breakHeld machine.console).2
  unfold Machine.advancePause
  dsimp only
  split
  · exact frame.trans (frame.endPause machine sounding) (frame.lineDone _ inProgram)
  · split
    · exact frame.trans (frame.trans looked (frame.endPause _ sounding)) (frame.conclude _ _ _)
    · exact frame.aside ⟨rfl, rfl, rfl, rfl, rfl, rfl, rfl, id⟩

/-- A step that carries out no line keeps to an inner frame. -/
theorem advance {machine : Machine H} (none : machine.turn? = none) :
    relation machine machine.advance := by
  unfold turn? at none
  unfold Machine.advance
  cases phase : machine.phase with
  | editing => exact frame.refl machine
  | direct statement =>
      rw [phase] at none
      cases none
  | running =>
      rw [phase] at none
      have ended : machine.upcoming = 0 := by
        by_contra more
        dsimp only at none
        rw [if_neg more] at none
        cases none
      have landed : relation machine { machine with jump := .none } :=
        frame.aside ⟨rfl, rfl, rfl, rfl, rfl, rfl, rfl, id⟩
      dsimp only [advanceProgram]
      rw [if_pos ended]
      exact frame.trans landed (frame.conclude _ _ _)
  | entering target => exact frame.advanceEntry machine target
  | pausing deadline sounding inProgram =>
      exact frame.advancePause machine deadline sounding inProgram

end InnerFrame

end Machine
end HomeBasic
