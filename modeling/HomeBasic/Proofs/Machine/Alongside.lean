import HomeBasic.Proofs.Machine.Answers
import HomeBasic.Proofs.Machine.Direct
import HomeBasic.Proofs.Machine.Kindred

/-!
# Machines that run alongside each other

While a line is carried out, two machines are kin in the way that what is printed keeps to. A
report is only shown when a line has ended, or for a line that is refused, and the display is
emptied before the next line is carried out or the program is listed. In between they need be
kin in a looser way only (`Alongside`).

Main statements: machines that run alongside each other do so after every step
(`alongside_advance`), and after every line that is typed and entered (`alongside_enter`).
-/

namespace HomeBasic

open Attempt (Matches Mirrored mirrored_pure mirrored_throw)

namespace Machine

variable {H K : Type} {busy idle meet : H → K → Prop} {machine : Machine H} {other : Machine K}

theorem Kin.weaken (kin : Kin busy machine other)
    (weaker : ∀ console other, busy console other → idle console other) :
    Kin idle machine other :=
  let ⟨console, same, meets⟩ := kin
  ⟨console, same, weaker _ _ meets⟩

/-- Two machines that differ in their consoles alone, where these belong together the closer
way while a line or a program is carried out. -/
structure Alongside (busy idle : H → K → Prop) (machine : Machine H) (other : Machine K) :
    Prop where
  idle : Kin idle machine other
  busy : machine.phase ≠ .editing → Kin busy machine other

theorem Alongside.phase (alongside : Alongside busy idle machine other) :
    other.phase = machine.phase := by
  obtain ⟨⟨console, rfl, -⟩, -⟩ := alongside
  rfl

theorem Alongside.of_editing (kin : Kin idle machine other) (editing : machine.phase = .editing) :
    Alongside busy idle machine other :=
  ⟨kin, fun busy => absurd editing busy⟩

variable [Console H] [Console K] (reporting : Console.Reporting busy idle)
include reporting

theorem Alongside.of_busy (kin : Kin busy machine other) : Alongside busy idle machine other :=
  ⟨kin.weaken reporting.idle_of_busy, fun _ => kin⟩

/-! ## The end of a line -/

theorem kin_refreshEdit (kin : Kin idle machine other) :
    Kin idle machine.refreshEdit other.refreshEdit := by
  obtain ⟨console, rfl, meets⟩ := kin
  exact ⟨_, rfl, reporting.idle_showEditLine _ _ _ meets⟩

theorem alongside_conclude (inProgram : Bool) (outcome : Except Fault Unit)
    (kin : Kin idle machine other) :
    Alongside busy idle (machine.conclude inProgram outcome)
      (other.conclude inProgram outcome) := by
  refine .of_editing ?_ (phase_conclude inProgram outcome machine)
  obtain ⟨console, rfl, meets⟩ := kin
  have shown (report : String) := reporting.idle_showReport report _ _ meets
  unfold conclude
  dsimp only
  rcases outcome with fault | _
  · cases fault <;> exact kin_refreshEdit reporting ⟨_, rfl, shown _⟩
  · exact kin_refreshEdit reporting ⟨_, rfl, shown _⟩

theorem alongside_lineDone (inProgram : Bool) (kin : Kin busy machine other) :
    Alongside busy idle (machine.lineDone inProgram) (other.lineDone inProgram) := by
  have ends (inProgram : Bool) (outcome : Except Fault Unit) {machine : Machine H}
      {other : Machine K} (kin : Kin busy machine other) :=
    alongside_conclude reporting inProgram outcome (kin.weaken reporting.idle_of_busy)
  obtain ⟨console, rfl, meets⟩ := kin
  obtain ⟨held, looked⟩ := reporting.breakHeld _ _ meets
  unfold lineDone
  cases inProgram with
  | true =>
      rw [if_pos rfl, if_pos rfl]
      dsimp only
      rw [held]
      split
      · exact ends true _ ⟨_, rfl, looked⟩
      · exact .of_busy reporting ⟨_, rfl, looked⟩
  | false =>
      rw [if_neg Bool.false_ne_true, if_neg Bool.false_ne_true]
      dsimp only
      split
      · exact .of_busy reporting ⟨_, rfl, meets⟩
      · exact ends false _ ⟨_, rfl, meets⟩

theorem alongside_proceed (inProgram : Bool) {outcome : Except Fault Unit × Machine H}
    {arrival : Except Fault Unit × Machine K} (same : Matches (Kin busy) outcome arrival) :
    Alongside busy idle (proceed inProgram outcome) (proceed inProgram arrival) := by
  obtain ⟨_, machine⟩ := outcome
  obtain ⟨result, other⟩ := arrival
  obtain ⟨rfl, kin⟩ := same
  dsimp only at kin
  cases result with
  | error fault =>
      exact alongside_conclude reporting inProgram _ (kin.weaken reporting.idle_of_busy)
  | ok =>
      unfold proceed
      dsimp only
      rw [(Alongside.of_busy reporting kin).phase]
      split
      · exact .of_busy reporting kin
      · exact .of_busy reporting kin
      · exact alongside_lineDone reporting inProgram kin

theorem alongside_advanceProgram (kin : Kin busy machine other) :
    Alongside busy idle machine.advanceProgram other.advanceProgram := by
  obtain ⟨console, rfl, meets⟩ := kin
  unfold advanceProgram
  dsimp only
  change Alongside busy idle _ (if machine.upcoming = 0 then _ else _)
  split
  · exact alongside_conclude reporting true _
      ⟨console, rfl, reporting.idle_of_busy _ _ meets⟩
  · exact alongside_proceed reporting true
      (mirrored_carryOut reporting.toKindred _ _ _ ⟨console, rfl, meets⟩)

/-! ## Entries -/

theorem kin_showEdit (glyph : Glyph) (kin : Kin busy machine other) :
    Kin busy (machine.showEdit glyph) (other.showEdit glyph) := by
  obtain ⟨console, rfl, meets⟩ := kin
  exact ⟨_, rfl, reporting.showEditLine _ _ _ meets⟩

theorem kin_endEntry (kin : Kin busy machine other) : Kin busy machine.endEntry other.endEntry := by
  obtain ⟨console, rfl, meets⟩ := kin
  exact kin_showEdit reporting _ ⟨console, rfl, meets⟩

omit reporting in
theorem mirrored_entryNumber (kindred : Console.Kindred meet) (environment : Environment) :
    Mirrored (Desk.Level True meet) (entryNumber environment : Attempt (Desk H) _)
      (entryNumber environment) (Desk.Level True meet) := by
  intro desk opposite level
  have read := Statement.level_expression (Statement.alike_execute kindred environment)
    desk opposite level
  unfold Statement.expression at read
  rw [entryNumber_apply, entryNumber_apply]
  generalize Expression.evaluate environment .execute desk = outcome at read ⊢
  generalize Expression.evaluate environment .execute opposite = arrival at read ⊢
  obtain ⟨result, reached⟩ := outcome
  obtain ⟨_, arrived⟩ := arrival
  obtain ⟨same, level⟩ := read
  cases same
  cases result with
  | error fault =>
      dsimp only at level ⊢
      rw [level.scanner.position]
      exact ⟨rfl, level⟩
  | ok value =>
      have looked := level.scanner.look
      dsimp only at looked ⊢
      rw [looked.equal trivial]
      exact ⟨rfl, ⟨rfl, rfl, fun _ => rfl⟩, level.calculator, level.console⟩

theorem kin_takeEntry (isText : Bool) (kin : Kin busy machine other) :
    (other.takeEntry isText).1 = (machine.takeEntry isText).1 ∧
      Kin busy (machine.takeEntry isText).2 (other.takeEntry isText).2 := by
  obtain ⟨console, rfl, meets⟩ := kin
  unfold takeEntry
  dsimp only
  cases isText with
  | true =>
      rw [if_pos rfl, if_pos rfl]
      split
      · exact ⟨rfl, console, rfl, meets⟩
      · exact ⟨rfl, console, rfl, meets⟩
  | false =>
      rw [if_neg Bool.false_ne_true, if_neg Bool.false_ne_true]
      have read := mirrored_atDesk (.ofBytes machine.edit.refresh.bytes 0)
        (mirrored_entryNumber reporting.toKindred) { machine with edit := machine.edit.refresh }
        { machine with edit := machine.edit.refresh, console } ⟨console, rfl, meets⟩
      generalize atDesk (.ofBytes machine.edit.refresh.bytes 0) entryNumber
        { machine with edit := machine.edit.refresh } = outcome at read ⊢
      generalize atDesk (.ofBytes machine.edit.refresh.bytes 0) entryNumber
        { machine with edit := machine.edit.refresh, console } = arrival at read ⊢
      obtain ⟨_, reached⟩ := outcome
      obtain ⟨result, arrived⟩ := arrival
      obtain ⟨same, console, moved, meets⟩ := read
      dsimp only at same moved meets
      subst same moved
      rcases result with fault | ⟨fault, position⟩ | value
      · exact ⟨rfl, console, rfl, meets⟩
      · cases fault <;> exact ⟨rfl, console, rfl, meets⟩
      · exact ⟨rfl, console, rfl, meets⟩

theorem alongside_advanceEntry (target : Target) (kin : Kin busy machine other) :
    Alongside busy idle (machine.advanceEntry target) (other.advanceEntry target) := by
  have shown := kin_showEdit reporting .letter kin
  unfold advanceEntry
  generalize machine.showEdit .letter = first at shown ⊢
  generalize other.showEdit .letter = second at shown ⊢
  obtain ⟨console, rfl, meets⟩ := shown
  obtain ⟨key, taken⟩ := reporting.nextKey _ _ meets
  have kin : Kin busy { first with console := (Console.nextKey first.console).2 }
      { first with console := (Console.nextKey console).2 } := ⟨_, rfl, taken⟩
  have stopped := alongside_conclude reporting true (.error .stopped)
    ((kin_endEntry reporting kin).weaken reporting.idle_of_busy)
  dsimp only
  rw [key]
  split
  · exact stopped
  · exact stopped
  · have entered := kin_takeEntry reporting target.isText kin
    generalize takeEntry target.isText
      { first with console := (Console.nextKey first.console).2 } = outcome at entered ⊢
    generalize takeEntry target.isText
      { first with console := (Console.nextKey console).2 } = arrival at entered ⊢
    obtain ⟨_, reached⟩ := outcome
    obtain ⟨answer, arrived⟩ := arrival
    obtain ⟨same, kin⟩ := entered
    dsimp only at same kin
    subst same
    cases answer with
    | value value =>
        exact alongside_proceed reporting true
          (mirrored_assign target value _ _ (kin_endEntry reporting kin))
    | unusable => exact .of_busy reporting kin
    | failed fault =>
        exact alongside_conclude reporting true _
          ((kin_endEntry reporting kin).weaken reporting.idle_of_busy)
  · exact .of_busy reporting kin
  · exact .of_busy reporting kin
  · exact .of_busy reporting ⟨_, rfl, taken⟩

/-! ## Steps -/

theorem kin_endPause (sounding : Bool) (kin : Kin busy machine other) :
    Kin busy (machine.endPause sounding) (other.endPause sounding) := by
  obtain ⟨console, rfl, meets⟩ := kin
  cases sounding with
  | true => exact ⟨_, rfl, reporting.stopTone _ _ meets⟩
  | false => exact ⟨console, rfl, meets⟩

theorem alongside_advancePause (deadline : Nat) (sounding inProgram : Bool)
    (kin : Kin busy machine other) :
    Alongside busy idle (machine.advancePause deadline sounding inProgram)
      (other.advancePause deadline sounding inProgram) := by
  obtain ⟨console, rfl, meets⟩ := kin
  obtain ⟨held, looked⟩ := reporting.breakHeld _ _ meets
  unfold advancePause
  dsimp only
  rw [reporting.clock _ _ meets, held]
  split
  · exact alongside_lineDone reporting inProgram
      (kin_endPause reporting sounding ⟨console, rfl, meets⟩)
  · split
    · exact alongside_conclude reporting inProgram _
        ((kin_endPause reporting sounding ⟨_, rfl, looked⟩).weaken reporting.idle_of_busy)
    · exact .of_busy reporting ⟨_, rfl, reporting.delay _ _ _ looked⟩

theorem alongside_advance (alongside : Alongside busy idle machine other) :
    Alongside busy idle machine.advance other.advance := by
  unfold advance
  rw [alongside.phase]
  cases phase : machine.phase with
  | editing => exact alongside
  | direct statement =>
      exact alongside_proceed reporting false
        (mirrored_carryOut reporting.toKindred _ _ _ (alongside.busy (phase ▸ nofun)))
  | running => exact alongside_advanceProgram reporting (alongside.busy (phase ▸ nofun))
  | entering target =>
      exact alongside_advanceEntry reporting target (alongside.busy (phase ▸ nofun))
  | pausing deadline sounding inProgram =>
      exact alongside_advancePause reporting deadline sounding inProgram
        (alongside.busy (phase ▸ nofun))

theorem alongside_settle (alongside : Alongside busy idle machine other) (steps : Nat) :
    Alongside busy idle (machine.settle steps) (other.settle steps) := by
  induction steps generalizing machine other with
  | zero => exact alongside
  | succ steps inductionHypothesis =>
      unfold settle
      rw [alongside.phase]
      split
      · exact alongside
      · exact inductionHypothesis (alongside_advance reporting alongside)

/-! ## Lines that are entered -/

theorem alongside_submitBlank (editing : machine.phase = .editing) (kin : Kin idle machine other) :
    Alongside busy idle machine.submitBlank other.submitBlank := by
  refine .of_editing ?_ ((kept_submitBlank machine).2.trans editing)
  obtain ⟨console, rfl, meets⟩ := kin
  have listed := mirrored_list reporting.toKindred 0
    { machine with edit := machine.edit.clear, console := Console.clear machine.console }
    { machine with edit := machine.edit.clear, console := Console.clear console }
    ⟨_, rfl, reporting.busy_clear _ _ meets⟩
  unfold submitBlank
  exact kin_refreshEdit reporting (listed.2.weaken reporting.idle_of_busy)

theorem alongside_submitNumbered (number : Nat) (statement : List Code)
    (editing : machine.phase = .editing) (kin : Kin idle machine other) :
    (other.submitNumbered number statement).1 = (machine.submitNumbered number statement).1 ∧
      Alongside busy idle (machine.submitNumbered number statement).2
        (other.submitNumbered number statement).2 := by
  obtain ⟨console, rfl, meets⟩ := kin
  unfold submitNumbered
  dsimp only
  split
  · exact ⟨rfl, .of_editing (kin_refreshEdit reporting ⟨console, rfl, meets⟩) editing⟩
  · refine ⟨rfl, .of_editing (kin_refreshEdit reporting ⟨_, rfl, ?_⟩) editing⟩
    exact reporting.idle_showReport _ _ _ meets

theorem alongside_submit (editing : machine.phase = .editing) (kin : Kin idle machine other) :
    other.submit.1 = machine.submit.1 ∧ Alongside busy idle machine.submit.2 other.submit.2 := by
  obtain ⟨console, rfl, meets⟩ := kin
  unfold submit
  dsimp only
  split
  · refine ⟨rfl, ?_⟩
    dsimp only
    exact alongside_submitBlank reporting editing ⟨console, rfl, meets⟩
  · split
    · exact ⟨rfl, .of_editing (kin_refreshEdit reporting ⟨console, rfl, meets⟩) editing⟩
    · exact ⟨rfl, .of_busy reporting ⟨_, rfl, reporting.busy_clear _ _ meets⟩⟩
    · exact alongside_submitNumbered reporting _ _ editing ⟨console, rfl, meets⟩

theorem kin_press_code (code : Code) (kin : Kin idle machine other) :
    Kin idle (machine.press (.code code)).2 (other.press (.code code)).2 := by
  obtain ⟨console, rfl, meets⟩ := kin
  exact kin_refreshEdit reporting ⟨console, rfl, meets⟩

theorem kin_pressAll (codes : List Code) (kin : Kin idle machine other) :
    Kin idle (machine.pressAll (codes.map .code)) (other.pressAll (codes.map .code)) := by
  induction codes generalizing machine other with
  | nil => exact kin
  | cons code rest inductionHypothesis =>
      exact inductionHypothesis (kin_press_code reporting code kin)

theorem kin_typed (editing : machine.phase = .editing) (steps : Nat) (text : String)
    (kin : Kin idle machine other) :
    Kin idle (machine.typed steps text) (other.typed steps text) := by
  obtain ⟨console, rfl, meets⟩ := kin
  have pressed (K : Type) [Console K] (other : Machine K) (editing : other.phase = .editing) :
      other.typed steps text =
        pressAll ((Code.encode text).map .code) { other with edit := other.edit.clear } :=
    @typeAll_codes K _ { other with edit := other.edit.clear } editing steps (Code.encode text)
  rw [pressed H machine editing, pressed K { machine with console } editing]
  exact kin_pressAll reporting _ ⟨console, rfl, meets⟩

theorem alongside_enter (editing : machine.phase = .editing) (steps : Nat) (text : String)
    (kin : Kin idle machine other) :
    (other.enter steps text).1 = (machine.enter steps text).1 ∧
      Alongside busy idle (machine.enter steps text).2 (other.enter steps text).2 := by
  have typed := kin_typed reporting editing steps text kin
  have still := (kept_typed editing steps text).2.1
  rw [enter_eq, enter_eq]
  generalize machine.typed steps text = first at typed still ⊢
  generalize other.typed steps text = second at typed ⊢
  obtain ⟨same, submitted⟩ := alongside_submit reporting still typed
  exact ⟨same, alongside_settle reporting submitted steps⟩

end Machine
end HomeBasic
