import HomeBasic.Proofs.Line.Purity
import HomeBasic.Proofs.Machine.Moves
import HomeBasic.Proofs.Machine.Resumption

/-!
# Typing has no effect

Every key has the edit line checked, by the code that carries lines out, and yet changes
nothing but the edit line and how it is shown. When the machine is editing again, nothing
is left of what happened before: no jump is asked for, and the marker and the glyph are
those of the text and the cursor. So what is told of a line while it is typed does not
depend on how the machine came to it.

The one thing that the check does not replace is the marker of a line that is fine: it has to
be gone already. That is so when the text changes; when only the cursor moves, it is
because the verdict does not depend on the cursor.

Main statement: `typing_pure`.
-/

namespace HomeBasic

namespace EditLine

/-- The column of the fault that a check finds in a line. -/
def faultColumn (config : Config) (edit : EditLine) : Option Nat :=
  match (edit.check config).result with
  | .ok _ => none
  | .error (_, position) => some (edit.crunched.column position)

/-- The marker is not that of a line that was there before. -/
def Current (config : Config) (edit : EditLine) : Prop :=
  edit.marker = none ∨ edit.marker = edit.refresh.faultColumn config

/-- The line is crunched as it stands, and marked where a check finds a fault. -/
structure Checked (config : Config) (edit : EditLine) : Prop where
  refresh : edit.refresh = edit
  marker : edit.marker = edit.faultColumn config

variable {config : Config} {edit other : EditLine}

/-- The fault is found at the same column, wherever the cursor is. -/
theorem faultColumn_congr (config : Config) (text : other.text = edit.text) :
    other.refresh.faultColumn config = edit.refresh.faultColumn config := by
  have crunched : other.refresh.crunched = edit.refresh.crunched := congrArg crunch text
  have same := check_congr config
    (congrArg Crunched.bytes crunched)
  unfold faultColumn
  rw [same, crunched]

theorem Checked.current (checked : edit.Checked config) : edit.Current config := by
  rw [Current, checked.refresh]
  exact .inr checked.marker

/-- A key that leaves the text alone leaves the marker where it belongs, and any other
takes it away. -/
theorem Current.editKey (current : edit.Current config) (key : Key) :
    (Machine.editKey key edit).Current config := by
  have moved (other : EditLine) (text : other.text = edit.text)
      (marker : other.marker = edit.marker) : other.Current config := by
    rw [Current, marker, faultColumn_congr config text]
    exact current
  cases key with
  | code code => exact .inl rfl
  | delete =>
      rw [Machine.editKey, backspace]
      split <;> exact .inl rfl
  | left => exact moved _ rfl rfl
  | right =>
      rw [Machine.editKey, right]
      split
      · exact moved _ rfl rfl
      · exact current
  | «break» => exact .inl rfl
  | up | down | enter => exact current

end EditLine

namespace Program

/-- A line is only refused for want of room. -/
theorem fault_of_insert {program : Program} {number : Nat} {statement : List Code}
    {fault : Fault} (refused : program.insert number statement = .error fault) :
    fault = .outOfMemory := by
  unfold insert at refused
  dsimp only at refused
  split at refused
  · cases refused
  · split at refused
    · cases refused
      rfl
    · cases refused

end Program

namespace Machine

open EditLine (Checked Current)

/-- Nothing is left of what happened before: the machine is editing, no jump is asked for,
and the marker and the glyph are those of the edit line as it stands. -/
structure Quiescent {H : Type} (machine : Machine H) : Prop where
  editing : machine.phase = .editing
  jump : machine.jump = none
  edit : machine.edit.Checked machine.config
  glyph : machine.glyph = (machine.edit.check machine.config).glyph

/-- If the machine is editing, no jump is asked for, and no marker is left from another line. -/
def Idle {H : Type} (machine : Machine H) : Prop :=
  machine.phase = .editing → machine.jump = none ∧ machine.edit.Current machine.config

variable {H : Type}

theorem Quiescent.idle {machine : Machine H} (quiescent : machine.Quiescent) : machine.Idle :=
  fun _ => ⟨quiescent.jump, quiescent.edit.current⟩

/-- Two quiescent machines tell the same of the same line. -/
theorem Quiescent.agree {K : Type} {machine : Machine H} {other : Machine K}
    (first : machine.Quiescent) (second : other.Quiescent)
    (config : other.config = machine.config) (text : other.edit.text = machine.edit.text) :
    (other.edit.check other.config).result = (machine.edit.check machine.config).result ∧
      other.edit.marker = machine.edit.marker ∧
      (other.edit.cursor = machine.edit.cursor → other.glyph = machine.glyph) := by
  have crunched : other.edit.crunched = machine.edit.crunched := by
    rw [← first.edit.refresh, ← second.edit.refresh]
    exact congrArg crunch text
  have column := EditLine.faultColumn_congr machine.config text
  rw [first.edit.refresh, second.edit.refresh, ← first.edit.marker, ← config,
    ← second.edit.marker] at column
  refine ⟨?_, column, fun cursor => ?_⟩
  · rw [config]
    exact EditLine.check_congr _ (congrArg Crunched.bytes crunched)
  · have scanner : Scanner.ofEditLine other.edit = Scanner.ofEditLine machine.edit := by
      rw [← first.edit.refresh, ← second.edit.refresh]
      simp only [Scanner.ofEditLine, EditLine.bytes, EditLine.refresh, text, cursor]
    rw [first.glyph, second.glyph, config, EditLine.check, EditLine.check, scanner]

variable [Console H] {machine : Machine H}

/-! ## After a key -/

/-- A line that is checked and shown is marked where it has a fault, and nowhere else. -/
theorem quiescent_refreshEdit (editing : machine.phase = .editing) (jump : machine.jump = none)
    (current : machine.edit.Current machine.config) : machine.refreshEdit.Quiescent := by
  unfold refreshEdit
  dsimp only
  cases verdict : (machine.edit.refresh.check machine.config).result with
  | ok number =>
      have fine : machine.edit.refresh.faultColumn machine.config = none := by
        rw [EditLine.faultColumn, verdict]
      have unmarked : machine.edit.marker = none := current.elim id fun same => same.trans fine
      exact ⟨editing, jump, ⟨rfl, unmarked.trans fine.symm⟩, rfl⟩
  | error found =>
      have column : (machine.edit.refresh.mark found.2).faultColumn machine.config =
          some (machine.edit.refresh.crunched.column found.2) := by
        have same : ((machine.edit.refresh.mark found.2).check machine.config).result =
            .error found := verdict
        rw [EditLine.faultColumn, same]
        rfl
      exact ⟨editing, jump, ⟨rfl, column.symm⟩, rfl⟩

/-- However a line or a run ends, nothing is left of it. -/
theorem quiescent_conclude (inProgram : Bool) (outcome : Except Fault Unit) :
    (machine.conclude inProgram outcome).Quiescent := by
  unfold conclude
  dsimp only
  split
  all_goals exact quiescent_refreshEdit rfl rfl (.inl rfl)

/-- If a machine is editing after some step, that ended a line or a run. -/
def Concluded (machine : Machine H) : Prop :=
  machine.phase = .editing →
    ∃ (before : Machine H) (inProgram : Bool) (outcome : Except Fault Unit),
      machine = before.conclude inProgram outcome

theorem concluded_conclude (inProgram : Bool) (outcome : Except Fault Unit) :
    (machine.conclude inProgram outcome).Concluded :=
  fun _ => ⟨machine, inProgram, outcome, rfl⟩

theorem concluded_lineDone (inProgram : Bool) : (machine.lineDone inProgram).Concluded := by
  unfold lineDone
  dsimp only
  split
  · split
    · exact concluded_conclude _ _
    · exact nofun
  · split
    · exact nofun
    · exact concluded_conclude _ _

theorem concluded_proceed (inProgram : Bool) (outcome : Except Fault Unit × Machine H) :
    (proceed inProgram outcome).Concluded := by
  rcases outcome with ⟨fault | _, changed⟩
  · exact concluded_conclude _ _
  · unfold proceed
    dsimp only
    split
    next phase => exact fun editing => by rw [phase] at editing; cases editing
    next phase => exact fun editing => by rw [phase] at editing; cases editing
    next => exact concluded_lineDone inProgram

theorem phase_takeEntry (isText : Bool) (machine : Machine H) :
    (machine.takeEntry isText).2.phase = machine.phase := by
  unfold takeEntry
  dsimp only
  cases isText with
  | true =>
      rw [if_pos rfl]
      split <;> rfl
  | false =>
      rw [if_neg (by decide)]
      split
      all_goals
        next run => exact congrArg (fun outcome => outcome.2.phase) run.symm

theorem concluded_advanceEntry {target : Target} (entering : machine.phase = .entering target) :
    (machine.advanceEntry target).Concluded := by
  have stays {changed : Machine H} (same : changed.phase = machine.phase) : changed.Concluded :=
    fun editing => by rw [same, entering] at editing; cases editing
  unfold advanceEntry
  dsimp only
  split
  · exact concluded_conclude _ _
  · exact concluded_conclude _ _
  · have phase := phase_takeEntry target.isText
      { machine.showEdit .letter with
        console := (Console.nextKey (machine.showEdit .letter).console).2 }
    split
    next => exact concluded_proceed true _
    next run =>
      rw [run] at phase
      exact stays phase
    next => exact concluded_conclude _ _
  · exact stays rfl
  · exact stays rfl
  · exact stays rfl

theorem concluded_advancePause {deadline : Nat} {sounding inProgram : Bool}
    (pausing : machine.phase = .pausing deadline sounding inProgram) :
    (machine.advancePause deadline sounding inProgram).Concluded := by
  unfold advancePause
  dsimp only
  split
  · exact concluded_lineDone inProgram
  · split
    · exact concluded_conclude _ _
    · exact fun editing => by cases pausing.symm.trans editing

theorem concluded_advance (busy : machine.phase ≠ .editing) : machine.advance.Concluded := by
  unfold advance
  split
  next editing => exact absurd editing busy
  next => exact concluded_proceed false _
  next =>
    unfold advanceProgram
    dsimp only
    split
    · exact concluded_conclude _ _
    · exact concluded_proceed true _
  next target entering => exact concluded_advanceEntry entering
  next pausing => exact concluded_advancePause pausing

/-- If a machine is editing after some key or step, nothing is left of what happened before. -/
def Ends (machine : Machine H) : Prop :=
  machine.phase = .editing → machine.Quiescent

theorem Concluded.ends (concluded : machine.Concluded) : machine.Ends := by
  intro editing
  obtain ⟨before, inProgram, outcome, rfl⟩ := concluded editing
  exact quiescent_conclude inProgram outcome

theorem ends_advance (busy : machine.phase ≠ .editing) : machine.advance.Ends :=
  (concluded_advance busy).ends

/-! ## Keys -/

theorem exists_list (start : Nat) (machine : Machine H) :
    ∃ console, (list start machine).2 = { machine with console } :=
  ⟨_, rfl⟩

/-- A blank line lists the program on an empty display, and leaves the edit line empty. -/
theorem exists_submitBlank (machine : Machine H) :
    ∃ edit glyph console, machine.submitBlank = { machine with edit, glyph, console } ∧
      edit.text = [] ∧ edit.cursor = 0 := by
  obtain ⟨console, listed⟩ := exists_list 0
    { machine with edit := machine.edit.clear, console := Console.clear machine.console }
  obtain ⟨edit, glyph, codes, refreshed, text, cursor⟩ := exists_refreshEdit
    { machine with edit := machine.edit.clear, console }
  have blank : machine.submitBlank =
      refreshEdit { machine with edit := machine.edit.clear, console } := by
    rw [submitBlank, listed]
  exact ⟨edit, glyph, _, blank.trans refreshed, text, cursor⟩

theorem ends_submit (editing : machine.phase = .editing) (idle : machine.Idle) :
    (machine.press .enter).2.Ends := by
  obtain ⟨jump, current⟩ := idle editing
  have refreshed : machine.edit.refresh.Current machine.config := current
  have submitted := machine.submitted
  generalize machine.press .enter = answer at submitted ⊢
  cases submitted with
  | blank =>
      obtain ⟨console, listed⟩ := exists_list 0
        { machine with edit := machine.edit.clear, console := Console.clear machine.console }
      rw [submitBlank, listed]
      exact fun _ => quiescent_refreshEdit editing jump (.inl rfl)
  | refused | full => exact fun _ => quiescent_refreshEdit editing jump refreshed
  | direct => exact nofun
  | stored => exact fun _ => quiescent_refreshEdit editing jump (.inl rfl)

theorem ends_press (editing : machine.phase = .editing) (idle : machine.Idle) (key : Key) :
    (machine.press key).2.Ends := by
  obtain ⟨jump, current⟩ := idle editing
  have recalled (offset : Nat) : ((machine.recallLine offset).refreshEdit).Quiescent := by
    unfold recallLine
    split
    · exact quiescent_refreshEdit editing jump current
    · exact quiescent_refreshEdit editing jump (.inl rfl)
  unfold press
  split
  · exact ends_submit editing idle
  · unfold recallPrevious
    split
    · exact fun _ => recalled _
    · exact fun _ => quiescent_refreshEdit editing jump current
  · exact fun _ => recalled _
  · exact fun _ => quiescent_refreshEdit editing jump (current.editKey _)

theorem ends_type (editing : machine.phase = .editing) (idle : machine.Idle) (steps : Nat)
    (key : Key) : (machine.type steps key).2.Ends :=
  settle_of_advance (fun _ _ busy => ends_advance busy) steps
    (ends_press editing idle key)

/-- No machine that came about has a jump or a marker left when it is editing. -/
theorem Reached.idle {typable : Key → Prop} {config : Config}
    (reached : Reached typable config machine) : machine.Idle := by
  refine reached.of_moves (fun console => ?_) fun machine changed idle move => ?_
  · exact (quiescent_refreshEdit rfl rfl (.inl rfl)).idle
  · cases move with
    | press editing may => exact fun ends => (ends_press editing idle _ ends).idle ends
    | advance =>
        by_cases editing : machine.phase = .editing
        · rwa [advance, editing]
        · exact fun ends => (ends_advance editing ends).idle ends
    | retype editing => exact fun _ => ⟨(idle editing).1, .inl rfl⟩
    | outside console => exact idle

/-! ## What a key changes -/

/-- What a key changes that is not enter: the edit line, and how it is shown. -/
theorem exists_press (machine : Machine H) {key : Key} (other : key ≠ .enter) :
    (machine.press key).1 = true ∧ ∃ edit glyph codes, (machine.press key).2 =
      { machine with edit, glyph, console := Console.showEditLine codes machine.console } := by
  have shown (edit : EditLine) : ∃ edit' glyph codes, refreshEdit { machine with edit } =
      { machine with
        edit := edit', glyph, console := Console.showEditLine codes machine.console } := by
    obtain ⟨_, _, _, shown, _, _⟩ := exists_refreshEdit { machine with edit }
    exact ⟨_, _, _, shown⟩
  have recalled (offset : Nat) : ∃ edit, machine.recallLine offset = { machine with edit } := by
    unfold recallLine
    split
    · exact ⟨_, rfl⟩
    · exact ⟨_, rfl⟩
  cases key with
  | enter => exact absurd rfl other
  | up =>
      refine ⟨rfl, ?_⟩
      unfold press recallPrevious
      dsimp only
      split
      next offset _ =>
        obtain ⟨edit, brought⟩ := recalled offset
        rw [brought]
        exact shown edit
      · exact shown machine.edit
  | down =>
      obtain ⟨edit, brought⟩ := recalled
        (machine.program.find (min (machine.edit.current + 1) 65535)).1
      refine ⟨rfl, ?_⟩
      unfold press recallNext
      dsimp only
      rw [brought]
      exact shown edit
  | code | left | right | delete | «break» => exact ⟨rfl, shown _⟩

/-- A line that is refused is kept, and all there is to see is that it is out of memory. -/
theorem exists_press_enter (refused : (machine.press .enter).1 = false) :
    ∃ edit glyph codes console, (machine.press .enter).2 =
        { machine with edit, glyph, console := Console.showEditLine codes console } ∧
      edit.text = machine.edit.text ∧ edit.cursor = machine.edit.cursor ∧
      (console = machine.console ∨
        console =
          Console.showReport (reportText Fault.outOfMemory.reportChar 0) machine.console) := by
  have submitted := machine.submitted
  generalize machine.press .enter = answer at submitted refused ⊢
  cases submitted with
  | blank | direct | stored => cases refused
  | refused =>
      obtain ⟨edit, glyph, codes, shown, text, cursor⟩ := exists_refreshEdit machine.examined
      exact ⟨edit, glyph, codes, machine.console, shown, text, cursor, .inl rfl⟩
  | full _ _ run =>
      obtain rfl := Program.fault_of_insert run
      obtain ⟨edit, glyph, codes, shown, text, cursor⟩ :=
        exists_refreshEdit (machine.examined.report Fault.outOfMemory.reportChar 0)
      exact ⟨edit, glyph, codes, _, shown, text, cursor, .inr rfl⟩

/--
Typing has no effect, and what it shows depends on the line alone.

The check of the edit line finds the same with the machine at hand, whatever is pending, as
with nothing at hand, and leaves the console as it was. A key that is not enter changes the
edit line and how it is shown; an enter that is refused keeps the line and may only report
that it is out of memory. After every key the machine is quiescent when it is editing again,
and any two machines of the same dimensions, however they came about, then tell the same of
the same line.
-/
theorem typing_pure {typable : Key → Prop} {config : Config}
    (reached : Reached typable config machine) (editing : machine.phase = .editing) :
    (∀ (edit : EditLine) (pending : List Pending),
      let checked := EditLine.checkAt machine.environment
        ⟨.ofEditLine edit, ⟨machine.config.calculatorDepth, pending⟩, machine.console⟩
      checked.1 = edit.check machine.config ∧ checked.2.console = machine.console) ∧
    (∀ steps key, key ≠ .enter → (machine.type steps key).1 = true ∧
      ∃ edit glyph codes, (machine.type steps key).2 =
        { machine with edit, glyph, console := Console.showEditLine codes machine.console }) ∧
    (∀ steps, (machine.type steps .enter).1 = false →
      ∃ edit glyph codes console, (machine.type steps .enter).2 =
          { machine with edit, glyph, console := Console.showEditLine codes console } ∧
        edit.text = machine.edit.text ∧ edit.cursor = machine.edit.cursor ∧
        (console = machine.console ∨
          console =
            Console.showReport (reportText Fault.outOfMemory.reportChar 0) machine.console)) ∧
    ∀ steps key, (machine.type steps key).2.phase = .editing →
      (machine.type steps key).2.Quiescent ∧
      ∀ (K : Type) [Console K] (allowed : Key → Prop) (dimensions : Config) (other : Machine K),
        Reached allowed dimensions other → other.phase = .editing →
        ∀ more another, (other.type more another).2.phase = .editing →
        let typed := (machine.type steps key).2
        let compared := (other.type more another).2
        compared.config = typed.config → compared.edit.text = typed.edit.text →
          (compared.edit.check compared.config).result = (typed.edit.check typed.config).result ∧
          compared.edit.marker = typed.edit.marker ∧
          (compared.edit.cursor = typed.edit.cursor → compared.glyph = typed.glyph) := by
  refine ⟨fun edit pending => ?_, fun steps key other => ?_, fun steps refused => ?_,
    fun steps key ends => ?_⟩
  · exact EditLine.checkAt_ofEditLine machine.environment edit pending machine.console
  · obtain ⟨taken, edit, glyph, codes, pressed⟩ := exists_press machine other
    have typed : (machine.type steps key).2 = (machine.press key).2.settle steps := rfl
    refine ⟨taken, edit, glyph, codes, ?_⟩
    rw [typed, pressed]
    exact settle_of_editing (by exact editing) steps
  · obtain ⟨edit, glyph, codes, console, pressed, kept⟩ := exists_press_enter refused
    have typed : (machine.type steps .enter).2 = (machine.press .enter).2.settle steps := rfl
    refine ⟨edit, glyph, codes, console, ?_, kept⟩
    rw [typed, pressed]
    exact settle_of_editing (by exact editing) steps
  · have quiescent := ends_type editing reached.idle steps key ends
    refine ⟨quiescent, fun K _ allowed dimensions other started waiting more another done => ?_⟩
    exact quiescent.agree (ends_type waiting started.idle more another done)

/-- At a recorder no key but enter is noticed by the display, the clock, the tones and the
notices. -/
theorem typing_pure_recorder :
    let machine := start {} (Recorder.start {} [] (MemorySlots.empty 2))
    machine.phase = .editing ∧ ∀ key, key ≠ .enter →
      let typed := (machine.type 1 key).2
      typed.Quiescent ∧ typed.console.screen = machine.console.screen ∧
        typed.console.clock = machine.console.clock ∧
        typed.console.tones = machine.console.tones ∧
        typed.console.notices = machine.console.notices := by
  intro machine
  have editing : machine.phase = .editing := rfl
  obtain ⟨-, changes, -, ends⟩ :=
    typing_pure (Reached.start (fun _ => True) {} (Recorder.start {} [] (MemorySlots.empty 2)))
      editing
  refine ⟨editing, fun key other => ?_⟩
  obtain ⟨-, edit, glyph, codes, typed⟩ := changes 1 key other
  refine ⟨(ends 1 key (by rw [typed]; exact editing)).1, ?_⟩
  rw [show (machine.type 1 key).2 = _ from typed]
  exact ⟨rfl, rfl, rfl, rfl⟩

end Machine
end HomeBasic
