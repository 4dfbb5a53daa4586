import HomeBasic.Proofs.Console.Bounds
import HomeBasic.Proofs.Machine.Bounds

/-!
# Bounds of a session

A session is started, and goes on with keys and steps. With everything checked that a key does
(the line that is typed, cut out, stored or brought back) and everything that a step does, every
session from a start goes on the way it does with nothing checked, and what it prints on a
screen is printed into cells that there are.

Main statement: `Reachable.within_bounds`.
-/

namespace HomeBasic

open Checked

namespace Machine

variable {H : Type} {config : Config} {holds : H → Prop} {machine : Machine H}

/-! ## With everything checked -/

/-- Brings the line at an offset of the program back for editing. -/
def checkedRecallLine (offset : Nat) (machine : Machine H) : Option (Machine H) := do
  match ← machine.program.checkedLineAt offset with
  | none => return machine
  | some line =>
      let edit ← { machine.edit with current := line.number }.checkedSetText
        (line.listing machine.config.word)
      return { machine with edit }

/-- Brings back the line before the current one. -/
def checkedRecallPrevious (machine : Machine H) : Option (Machine H) :=
  match (machine.program.find machine.edit.current).2 with
  | some offset => machine.checkedRecallLine offset
  | none => some machine

/-- Brings back the line after the current one. -/
def checkedRecallNext (machine : Machine H) : Option (Machine H) :=
  machine.checkedRecallLine (machine.program.find (min (machine.edit.current + 1) 65535)).1

variable [Console H]

/-- Lists the program for a blank line, as far as the display has room. -/
def checkedSubmitBlank (machine : Machine H) : Option (Machine H) := do
  let edit ← machine.edit.checkedSetText []
  let (_, machine) ← checkedList 0 { machine with edit, console := Console.clear machine.console }
  machine.checkedRefreshEdit

/-- Stores the statement of a numbered line. Without room for it the line is kept. -/
def checkedSubmitNumbered (number : Nat) (statement : List Code) (machine : Machine H) :
    Option (Bool × Machine H) := do
  match ← machine.program.checkedInsert number statement with
  | .ok program =>
      let edit ← { machine.edit with current := number }.checkedSetText []
      return (true, ← checkedRefreshEdit { machine with program, edit })
  | .error fault => return (false, ← (machine.report fault.reportChar 0).checkedRefreshEdit)

/-- Enters the edit line; the answer tells whether it was taken. -/
def checkedSubmit (machine : Machine H) : Option (Bool × Machine H) := do
  if machine.edit.isBlank then
    return (true, ← machine.checkedSubmitBlank)
  else
    let edit ← machine.edit.checkedRefresh
    let verdict ← edit.checkedCheck machine.config
    let machine := { machine with edit, glyph := verdict.glyph }
    match verdict.result with
    | .error _ => return (false, ← machine.checkedRefreshEdit)
    | .ok 0 => return (true, machine.submitDirect (← edit.checkedStatement verdict))
    | .ok number => machine.checkedSubmitNumbered number (← edit.checkedStatement verdict)

/-- Takes a key for the edit line; the answer is false when enter was refused. -/
def checkedPress (key : Key) (machine : Machine H) : Option (Bool × Machine H) :=
  match key with
  | .enter => machine.checkedSubmit
  | .up => do return (true, ← (← machine.checkedRecallPrevious).checkedRefreshEdit)
  | .down => do return (true, ← (← machine.checkedRecallNext).checkedRefreshEdit)
  | key => do
      let edit ← checkedEditKey key machine.edit
      return (true, ← checkedRefreshEdit { machine with edit })

/-- A machine that was just started. -/
def checkedStart (config : Config) (console : H) : Option (Machine H) :=
  checkedRefreshEdit
    { config
      program := Program.empty config.programSize
      variableStore := Variables.empty config.word config.variablesSize
      memory := Array.replicate config.memorySize 0
      returns := BoundedStack.empty config.returnDepth
      data := .fromLine 0
      edit := EditLine.empty
      glyph := none
      console
      phase := .editing
      line := 0
      jump := none
      resumeLine := 0
      started := Console.clock console }

/-- At most so many steps, up to the next time the machine is editing. -/
def checkedSettle : (steps : Nat) → Machine H → Option (Machine H)
  | 0, machine => some machine
  | steps + 1, machine =>
      match machine.phase with
      | .editing => some machine
      | _ => do checkedSettle steps (← machine.checkedAdvance)

/-- Takes a key and settles, in at most so many steps. -/
def checkedType (steps : Nat) (key : Key) (machine : Machine H) : Option (Bool × Machine H) := do
  let (accepted, machine) ← machine.checkedPress key
  return (accepted, ← machine.checkedSettle steps)

/-- Takes keys one after the other; the answers tell which of them were taken. -/
def checkedTypeAll (steps : Nat) : List Key → Machine H → Option (List Bool × Machine H)
  | [], machine => some ([], machine)
  | key :: rest, machine => do
      let (accepted, machine) ← machine.checkedType steps key
      let (others, machine) ← checkedTypeAll steps rest machine
      return (accepted :: others, machine)

/-- Takes the keys of the console, at most so many, until there are no more. -/
def checkedFeed (steps : Nat) : (keys : Nat) → Machine H → Option (Machine H)
  | 0, machine => some machine
  | keys + 1, machine =>
      match Console.nextKey machine.console with
      | (none, console) => some { machine with console }
      | (some key, console) => do
          let (_, machine) ← { machine with console }.checkedType steps key
          checkedFeed steps keys machine

/-! ## Keys -/

omit [Console H] in
theorem checkedRecallLine_eq {offset : Nat}
    (cut : machine.program.checkedLineAt offset = some (machine.program.lineAt? offset)) :
    machine.checkedRecallLine offset = some (machine.recallLine offset) := by
  rw [Machine.checkedRecallLine, cut, Machine.recallLine]
  cases machine.program.lineAt? offset with
  | none => rfl
  | some line =>
      dsimp only [Option.bind_eq_bind, Option.bind_some]
      rw [EditLine.checkedSetText_eq]
      rfl

namespace Sound

variable (sound : machine.Sound config holds)
include sound

omit [Console H] in
theorem checkedRecallPrevious :
    machine.checkedRecallPrevious = some machine.recallPrevious := by
  unfold Machine.checkedRecallPrevious Machine.recallPrevious
  cases before : (machine.program.find machine.edit.current).2 with
  | none => rfl
  | some offset => exact checkedRecallLine_eq (sound.program.checkedLineAt_before before)

omit [Console H] in
theorem checkedRecallNext : machine.checkedRecallNext = some machine.recallNext :=
  checkedRecallLine_eq (sound.program.checkedLineAt _)

theorem checkedSubmitNumbered (wide : 1 ≤ config.width) {number : Nat}
    (numbered : 0 < number ∧ number ≤ Line.maxNumber) (statement : List Code) :
    machine.checkedSubmitNumbered number statement =
      some (machine.submitNumbered number statement) := by
  have wide : 1 ≤ machine.config.width := sound.config_eq ▸ wide
  rw [Machine.checkedSubmitNumbered, sound.program.checkedInsert numbered,
    Machine.submitNumbered]
  dsimp only [Option.bind_eq_bind, Option.bind_some]
  cases machine.program.insert number statement with
  | error fault =>
      dsimp only
      rw [checkedRefreshEdit_eq]
      · rfl
      · exact wide
  | ok program =>
      dsimp only
      rw [EditLine.checkedSetText_eq, Option.bind_some, checkedRefreshEdit_eq]
      · rfl
      · exact wide

variable (upheld : Console.Upheld config.word (fun _ => True) holds)
include upheld

theorem checkedSubmitBlank (wide : 1 ≤ config.width) :
    machine.checkedSubmitBlank = some machine.submitBlank := by
  have cleared : Sound config holds { machine with
      edit := machine.edit.clear, console := Console.clear machine.console } :=
    { sound with oneLine := List.not_mem_nil, console := upheld.clear _ sound.console }
  have listed : checkedList 0 _ = some _ := cleared.succeeds_list 0
  have kept := (upkeeps_list upheld 0).kept cleared
  rw [Machine.checkedSubmitBlank, EditLine.checkedSetText_eq]
  dsimp only [Option.bind_eq_bind, Option.bind_some]
  rw [← EditLine.clear, listed]
  refine checkedRefreshEdit_eq ?_
  rw [kept.config_eq]
  exact wide

theorem checkedSubmit (wide : 1 ≤ config.width) :
    machine.checkedSubmit = some machine.submit := by
  have width : 1 ≤ machine.config.width := sound.config_eq ▸ wide
  have checked : Sound config holds { machine with
      edit := machine.edit.refresh, glyph := (machine.edit.refresh.check machine.config).glyph } :=
    { sound with }
  have cut : machine.edit.refresh.checkedStatement (machine.edit.refresh.check machine.config) =
      some (machine.edit.refresh.statement (machine.edit.refresh.check machine.config)) :=
    EditLine.checkedStatement_eq rfl sound.oneLine
  have numbered := @EditLine.numbered_check machine.config machine.edit.refresh
  unfold Machine.checkedSubmit Machine.submit
  split
  · rw [sound.checkedSubmitBlank upheld wide]
    rfl
  · rw [EditLine.checkedRefresh_eq]
    dsimp only [Option.bind_eq_bind, Option.bind_some]
    rw [EditLine.checkedCheck_eq width]
    dsimp only [Option.bind_some]
    rw [cut]
    rcases read : (machine.edit.refresh.check machine.config).result with fault | _ | number
    · dsimp only
      rw [checkedRefreshEdit_eq]
      · rfl
      · exact width
    · rfl
    · exact checked.checkedSubmitNumbered wide ((numbered read).resolve_left number.succ_ne_zero) _

/-- A key that types a display code stays within bounds, whatever the machine is doing. -/
theorem checkedPress (wide : 1 ≤ config.width) (placed : machine.edit.Placed) (key : Key) :
    machine.checkedPress key = some (machine.press key) := by
  unfold Machine.checkedPress Machine.press
  cases key with
  | enter => exact sound.checkedSubmit upheld wide
  | up =>
      have recalled := sound.recallPrevious
      dsimp only
      rw [sound.checkedRecallPrevious, Option.bind_eq_bind, Option.bind_some,
        checkedRefreshEdit_eq (recalled.config_eq ▸ wide)]
      rfl
  | down =>
      have recalled : machine.recallNext.Sound config holds := sound.recallLine _
      dsimp only
      rw [sound.checkedRecallNext, Option.bind_eq_bind, Option.bind_some,
        checkedRefreshEdit_eq (recalled.config_eq ▸ wide)]
      rfl
  | code | delete | left | right | «break» =>
      have wide : 1 ≤ machine.config.width := sound.config_eq ▸ wide
      dsimp only
      rw [checkedEditKey_eq placed, Option.bind_eq_bind, Option.bind_some,
        checkedRefreshEdit_eq]
      · rfl
      · exact wide

end Sound

/-! ## Sessions -/

theorem checkedStart_eq (wide : 1 ≤ config.width) (console : H) :
    checkedStart config console = some (start config console) :=
  checkedRefreshEdit_eq wide

namespace Reachable

section
variable {ready : H → Prop} (reachable : Reachable config ready machine)
include reachable

theorem advance : Reachable config ready machine.advance := by
  obtain ⟨console, start, reached⟩ := reachable
  exact ⟨console, start, reached.tail (.advance fun _ _ _ _ => trivial)⟩

theorem press {key : Key} (displayed : key.Displayed) :
    Reachable config ready (machine.press key).2 := by
  obtain ⟨console, start, reached⟩ := reachable
  exact ⟨console, start, reached.tail (.press displayed)⟩

theorem outside {console : H} (held : ready console) :
    Reachable config ready { machine with console } := by
  obtain ⟨first, start, reached⟩ := reachable
  exact ⟨first, start, reached.tail (.outside held)⟩

end

section
variable {ready : H → Prop} (upheld : Console.Upheld config.word (fun _ => True) ready)
  (wide : 1 ≤ config.width) (programRoom : 2 ≤ config.programSize)
  (variablesRoom : 1 ≤ config.variablesSize)
include upheld wide programRoom variablesRoom

theorem checkedAdvance (reachable : Reachable config ready machine) :
    machine.checkedAdvance = some machine.advance := by
  have sound := reachable.sound upheld programRoom variablesRoom
  have placed := reachable.placed upheld programRoom variablesRoom
  exact sound.checkedAdvance upheld variablesRoom (sound.ranged wide placed.line) placed.edit

theorem checkedPress (reachable : Reachable config ready machine) (key : Key) :
    machine.checkedPress key = some (machine.press key) := by
  have sound := reachable.sound upheld programRoom variablesRoom
  have placed := reachable.placed upheld programRoom variablesRoom
  exact sound.checkedPress upheld wide placed.edit key

theorem checkedSettle (reachable : Reachable config ready machine) (steps : Nat) :
    machine.checkedSettle steps = some (machine.settle steps) := by
  induction steps generalizing machine with
  | zero => rfl
  | succ steps inductionHypothesis =>
      unfold Machine.checkedSettle Machine.settle
      rw [reachable.checkedAdvance upheld wide programRoom variablesRoom]
      cases machine.phase with
      | editing => rfl
      | _ => exact inductionHypothesis reachable.advance

theorem checkedType (reachable : Reachable config ready machine) (steps : Nat) {key : Key}
    (displayed : key.Displayed) :
    machine.checkedType steps key = some (machine.type steps key) := by
  have settled := (reachable.press displayed).checkedSettle upheld wide programRoom
    variablesRoom steps
  rw [Machine.checkedType, reachable.checkedPress upheld wide programRoom variablesRoom,
    Machine.type]
  generalize machine.press key = outcome at settled ⊢
  obtain ⟨accepted, changed⟩ := outcome
  dsimp only [Option.bind_eq_bind, Option.bind_some] at settled ⊢
  rw [settled]
  rfl

/-- However many keys are typed, they are taken within bounds. -/
theorem checkedTypeAll (reachable : Reachable config ready machine) (steps : Nat)
    {keys : List Key} (displayed : ∀ key ∈ keys, key.Displayed) :
    machine.checkedTypeAll steps keys = some (machine.typeAll steps keys) := by
  induction keys generalizing machine with
  | nil => rfl
  | cons key rest inductionHypothesis =>
      obtain ⟨first, others⟩ := List.forall_mem_cons.mp displayed
      have onward := inductionHypothesis (reachable.type steps first) others
      rw [Machine.checkedTypeAll,
        reachable.checkedType upheld wide programRoom variablesRoom steps first, Machine.typeAll]
      generalize machine.type steps key = outcome at onward ⊢
      obtain ⟨accepted, changed⟩ := outcome
      dsimp only [Option.bind_eq_bind, Option.bind_some] at onward ⊢
      rw [onward]
      rfl

/-- However many keys a console has, they are taken within bounds. -/
theorem checkedFeed (reachable : Reachable config ready machine) (steps keys : Nat) :
    machine.checkedFeed steps keys = some (machine.feed steps keys) := by
  induction keys generalizing machine with
  | zero => rfl
  | succ keys inductionHypothesis =>
      have held := (reachable.sound upheld programRoom variablesRoom).console
      have taken := reachable.outside (upheld.nextKey _ held)
      have displayed := upheld.displayed machine.console
      unfold Machine.checkedFeed Machine.feed
      generalize Console.nextKey machine.console = pressed at taken displayed ⊢
      obtain ⟨_ | key, console⟩ := pressed
      · rfl
      · have shown := displayed key held rfl
        dsimp only at taken ⊢
        rw [taken.checkedType upheld wide programRoom variablesRoom steps shown]
        exact inductionHypothesis (taken.type steps shown)

/-- No session goes out of bounds: however it is started, whatever keys are typed and whatever
its console answers, every key and every step does with everything checked what it does with
nothing checked; and on the screen of a recorder, whatever it is used for, every code has its
cell, and every tone its time. -/
theorem within_bounds :
    (∀ console : H, checkedStart config console = some (start config console)) ∧
      (∀ machine : Machine H, Reachable config ready machine →
        machine.checkedAdvance = some machine.advance ∧
        (∀ key, machine.checkedPress key = some (machine.press key)) ∧
        (∀ steps keys, (∀ key ∈ keys, key.Displayed) →
          machine.checkedTypeAll steps keys = some (machine.typeAll steps keys)) ∧
        ∀ steps keys, machine.checkedFeed steps keys = some (machine.feed steps keys)) ∧
      ∀ {S : Type} [SlotStore S] (randoms : List Int) (slots : S) (recorder : Recorder S),
        Console.Used (Recorder.start config randoms slots) recorder →
          (∀ code, recorder.screen.checkedPrint code = some (recorder.screen.print? code)) ∧
            recorder.checkedStopTone = some recorder.stopTone := by
  refine ⟨checkedStart_eq wide, fun machine reachable => ⟨?_, ?_, ?_, ?_⟩, ?_⟩
  · exact reachable.checkedAdvance upheld wide programRoom variablesRoom
  · exact reachable.checkedPress upheld wide programRoom variablesRoom
  · intro steps keys displayed
    exact reachable.checkedTypeAll upheld wide programRoom variablesRoom steps displayed
  · exact reachable.checkedFeed upheld wide programRoom variablesRoom
  · intro S _ randoms slots recorder used
    exact Recorder.checked_of_used wide used

end

/-- A `TAB` to a column that a narrow display does not have is typed and carried out. -/
theorem within_bounds_narrow :
    let config : Config := { width := 4, programSize := 16, variablesSize := 8 }
    let recorder := Recorder.start config [] (MemorySlots.empty 2)
    let first : Machine (Recorder MemorySlots) := start config recorder
    let keys := Teletype.keysOf "PRINT TAB 9;1".toList
    checkedStart config recorder = some first ∧
      first.checkedTypeAll 4 keys = some (first.typeAll 4 keys) ∧
      (first.typeAll 4 keys).1.getLast? = some true ∧
      recorder.checkedStopTone = some recorder.stopTone := by
  intro config recorder first keys
  have upheld : Console.Upheld config.word (fun _ => True)
      (Recorder.Ready fun slots : MemorySlots => 1 < slots.blocks.length) :=
    Recorder.upheld_present 1
  have reachable : Reachable config
      (Recorder.Ready fun slots : MemorySlots => 1 < slots.blocks.length) first :=
    ⟨recorder, ⟨by simp [recorder, Recorder.start], by decide⟩, .refl⟩
  obtain ⟨started, ran, recorded⟩ :=
    @within_bounds _ config _ _ upheld (by decide) (by decide) (by decide)
  obtain ⟨-, -, typed, -⟩ := ran first reachable
  refine ⟨started recorder, typed 4 keys fun _ => Teletype.displayed_keysOf, ?_, ?_⟩
  · decide +kernel
  · exact (recorded [] _ recorder .unused).2

end Reachable

end Machine
end HomeBasic
