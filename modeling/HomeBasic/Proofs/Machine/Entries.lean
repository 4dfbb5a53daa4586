import HomeBasic.Proofs.Machine.Answers
import HomeBasic.Proofs.Machine.Direct
import HomeBasic.Proofs.Machine.Retries
import HomeBasic.Proofs.Machine.Shown

/-!
# Entries

An `INPUT` takes the keys of the console until one of them decides. The others change a text
with a cursor in it, or they are passed over, or they enter a text that cannot be used: then the
place is marked and the text is kept. The first text that can be used is stored as an assignment
stores it, and a fault that is not one of syntax, the break key and the end of the keys end the
program. Nothing is left of the entry but what was stored: the edit line is empty, and the
machine stands at the line of the program that it was carrying out.

Main statement: `input_stores_first`.
-/

namespace HomeBasic

open CursorText (Change)

/-! ## What is typed -/

/-- What a key does to the text of an entry, if anything. -/
def Key.change? : Key → Option Change
  | .code typed => some (.insert typed)
  | .delete => some .deleteLeft
  | .left => some .left
  | .right => some .right
  | .up | .down | .enter | .break => none

/-- The text that keys make of an empty line. -/
def CursorText.typed (keys : List Key) : CursorText :=
  (keys.filterMap Key.change?).foldl .apply (.ended [])

theorem CursorText.typed_append_singleton (keys : List Key) (key : Key) :
    typed (keys ++ [key]) = key.change?.toList.foldl .apply (typed keys) := by
  rw [typed, List.filterMap_append, List.foldl_append, ← typed]
  cases key <;> rfl

namespace Machine

variable {H : Type} [Console H] {keys : H → List Key} {target : Target} {machine stage : Machine H}
  {front : List Key}

/-! ## The keys of an entry -/

/-- The console once the edit line was shown on it and a key was taken from it. -/
def keyTaken (machine : Machine H) : H :=
  (Console.nextKey (Console.showEditLine (machine.edit.render .letter) machine.console)).2

/-- An entry of a machine is under way: some keys were taken, and the edit line holds what they
make of an empty one. Nothing else of the machine has changed. -/
structure Entering (keys : H → List Key) (target : Target) (machine : Machine H)
    (front : List Key) (stage : Machine H) : Prop where
  same : stage =
    { machine with edit := stage.edit, console := stage.console, phase := .entering target }
  placed : stage.edit.Placed
  plain : stage.edit.plain = .typed front
  queue : keys machine.console = front ++ keys stage.console

/-- A key changes the text, or is passed over, or enters a text that cannot be used, which is
marked then. -/
inductive PassesOver (target : Target) (environment : Environment) (text : List Code)
    (stage : Machine H) : Key → Machine H → Prop
  | changes {key : Key} {change : Change} {next : Machine H} :
      key.change? = some change → PassesOver target environment text stage key next
  | ignored {key : Key} {next : Machine H} :
      key = .up ∨ key = .down → PassesOver target environment text stage key next
  | refused {column : Nat} {next : Machine H} :
      Answers environment text stage.keyTaken target.isText (.marked column) next.console →
      next.edit.marker = some column →
      PassesOver target environment text stage .enter next

/-- A key, or that there is none, decides an entry: for a value, or for a fault. -/
inductive Decides (target : Target) (environment : Environment) (text : List Code)
    (stage : Machine H) : Option Key → Except Fault Value → H → Prop
  | lacking : Decides target environment text stage none (.error .stopped) stage.keyTaken
  | broken : Decides target environment text stage (some .break) (.error .stopped) stage.keyTaken
  | failed {fault : Fault} {console : H} :
      Answers environment text stage.keyTaken target.isText (.failed fault) console →
      Decides target environment text stage (some .enter) (.error fault) console
  | stored {value : Value} {console : H} :
      Answers environment text stage.keyTaken target.isText (.value value) console →
      Decides target environment text stage (some .enter) (.ok value) console

/-- The machine as it was, but that an empty edit line was shown on the console. -/
structure Emptied (machine : Machine H) (console : H) (ended : Machine H) : Prop where
  plain : ended.edit.plain = .ended []
  same : ∃ codes, ended =
    { machine with edit := ended.edit, console := Console.showEditLine codes console }

/-- Puts the value of an entry in its place, or fails as the entry did. -/
def storeEntry (target : Target) (outcome : Except Fault Value) : Attempt (Machine H) Unit :=
  Attempt.ofExcept outcome >>= assign target

omit [Console H] in
theorem Entering.moved (entering : Entering keys target machine front stage) {key : Key}
    (edit : EditLine) (console : H) (placed : edit.Placed)
    (plain : edit.plain = .typed (front ++ [key]))
    (queue : keys stage.console = key :: keys console) :
    Entering keys target machine (front ++ [key]) { stage with edit, console } where
  same := congrArg (fun other => { other with edit, console }) entering.same
  placed := placed
  plain := plain
  queue := by rw [entering.queue, queue, List.append_assoc, List.singleton_append]

/-- A machine that was running is running again once its entry has ended. -/
theorem Entering.emptied (running : machine.phase = .running)
    (entering : Entering keys target machine front stage) (edit : EditLine) (console : H) :
    Emptied machine console (endEntry { stage with edit, console }) := by
  have same : endEntry { stage with edit, console } =
      endEntry { machine with edit, console, phase := .entering target } :=
    congrArg (fun other => endEntry { other with edit, console }) entering.same
  have ends : endEntry { machine with edit, console, phase := .entering target } =
      { machine with
        edit := edit.clear
        console :=
          Console.showEditLine (edit.clear.render (machine.glyph.getD .letter)) console } := by
    unfold endEntry showEdit
    rw [← running]
  rw [same, ends]
  exact ⟨rfl, _, rfl⟩

section
variable (queued : Console.Queued keys)
include queued

theorem keys_keyTaken : keys stage.keyTaken = (keys stage.console).tail := by
  rw [keyTaken, queued.others, queued.showEditLine]

theorem Decides.keys_eq {environment : Environment} {text : List Code} {key : Option Key}
    {outcome : Except Fault Value} {console : H}
    (decides : Decides target environment text stage key outcome console) :
    keys console = (keys stage.console).tail := by
  rw [← keys_keyTaken queued]
  cases decides with
  | lacking | broken => rfl
  | failed answers | stored answers => exact answers.keys_eq queued

/-- A step of an entry goes by the key that comes next. -/
theorem advance_entering (phase : stage.phase = .entering target) :
    stage.advance =
      match (keys stage.console).head? with
      | none | some .break =>
          (endEntry { stage with console := stage.keyTaken }).conclude true (.error .stopped)
      | some .enter =>
          match takeEntry target.isText { stage with console := stage.keyTaken } with
          | (.value value, entered) => proceed true (assign target value entered.endEntry)
          | (.unusable, entered) => entered
          | (.failed fault, entered) => entered.endEntry.conclude true (.error fault)
      | some .up | some .down => { stage with console := stage.keyTaken }
      | some key => { stage with console := stage.keyTaken, edit := editKey key stage.edit } := by
  have key : (Console.nextKey
      (Console.showEditLine (stage.edit.render .letter) stage.console)).1 =
        (keys stage.console).head? := by
    rw [queued.first, queued.showEditLine]
  have entry : stage.advance = stage.advanceEntry target := by rw [advance, phase]
  rw [entry, ← key]
  rfl

/-- Enter marks a text that cannot be used, or it decides. -/
theorem Entering.enter (running : machine.phase = .running)
    (entering : Entering keys target machine front stage) {rest : List Key}
    (waiting : keys stage.console = .enter :: rest) :
    (PassesOver target machine.environment (CursorText.typed front).text stage .enter
        stage.advance ∧
      Entering keys target machine (front ++ [.enter]) stage.advance) ∨
    ∃ outcome console ended,
      Decides target machine.environment (CursorText.typed front).text stage (some .enter)
        outcome console ∧
      Emptied machine console ended ∧
      stage.advance = proceed true (storeEntry target outcome ended) := by
  have phase : stage.phase = .entering target := by rw [entering.same]
  have environment : stage.environment = machine.environment := by rw [entering.same]; rfl
  have text : stage.edit.text = (CursorText.typed front).text := by
    rw [← entering.plain, EditLine.text_plain]
  obtain ⟨answer, console, answers, takes⟩ :=
    exists_answers target.isText { stage with console := stage.keyTaken }
  change Answers stage.environment stage.edit.text stage.keyTaken target.isText answer
    console at answers
  rw [environment, text] at answers
  rw [advance_entering queued phase, waiting, List.head?_cons, takes]
  dsimp only
  cases answer with
  | value value =>
      exact .inr ⟨.ok value, console, _, .stored answers,
        entering.emptied running stage.edit.refresh console, rfl⟩
  | marked column =>
      refine .inl ⟨.refused answers rfl, ?_⟩
      refine entering.moved (stage.edit.refresh.markColumn column) console entering.placed ?_ ?_
      · rw [CursorText.typed_append_singleton, ← entering.plain]
        rfl
      · rw [answers.keys_eq queued, keys_keyTaken queued, waiting, List.tail_cons]
  | failed fault =>
      exact .inr ⟨.error fault, console, _, .failed answers,
        entering.emptied running stage.edit.refresh console, rfl⟩

/-- An entry takes one more key that does not decide it, or it is decided. -/
theorem Entering.step (running : machine.phase = .running)
    (entering : Entering keys target machine front stage) :
    (∃ key rest, keys stage.console = key :: rest ∧
      PassesOver target machine.environment (CursorText.typed front).text stage key
        stage.advance ∧
      Entering keys target machine (front ++ [key]) stage.advance) ∨
    ∃ outcome console ended,
      Decides target machine.environment (CursorText.typed front).text stage
        (keys stage.console).head? outcome console ∧
      Emptied machine console ended ∧
      stage.advance = proceed true (storeEntry target outcome ended) := by
  have phase : stage.phase = .entering target := by rw [entering.same]
  cases waiting : keys stage.console with
  | nil =>
      rw [advance_entering queued phase, waiting]
      exact .inr ⟨.error .stopped, stage.keyTaken, _, .lacking,
        entering.emptied running stage.edit stage.keyTaken, rfl⟩
  | cons key rest =>
      have taken : keys stage.console = key :: keys stage.keyTaken := by
        rw [keys_keyTaken queued, waiting, List.tail_cons]
      have edited (change : Change) (changes : key.change? = some change)
          (edit : editKey key stage.edit = stage.edit.changed change) :
          Entering keys target machine (front ++ [key])
            { stage with edit := editKey key stage.edit, console := stage.keyTaken } := by
        refine entering.moved _ _ (entering.placed.editKey key) ?_ taken
        rw [edit, EditLine.plain_changed entering.placed, entering.plain,
          CursorText.typed_append_singleton, changes]
        rfl
      have unchanged (changes : key.change? = none) :
          Entering keys target machine (front ++ [key])
            { stage with console := stage.keyTaken } := by
        refine entering.moved _ _ entering.placed ?_ taken
        rw [entering.plain, CursorText.typed_append_singleton, changes]
        rfl
      have advances := advance_entering queued phase
      rw [waiting] at advances
      cases key with
      | enter =>
          exact (entering.enter queued running waiting).imp_left fun passes =>
            ⟨.enter, rest, rfl, passes⟩
      | «break» =>
          rw [advances]
          exact .inr ⟨.error .stopped, stage.keyTaken, _, .broken,
            entering.emptied running stage.edit stage.keyTaken, rfl⟩
      | code typed =>
          rw [advances]
          exact .inl ⟨_, rest, rfl, .changes rfl, edited (.insert typed) rfl rfl⟩
      | delete =>
          rw [advances]
          exact .inl ⟨_, rest, rfl, .changes rfl, edited .deleteLeft rfl rfl⟩
      | left =>
          rw [advances]
          exact .inl ⟨_, rest, rfl, .changes rfl, edited .left rfl rfl⟩
      | right =>
          rw [advances]
          exact .inl ⟨_, rest, rfl, .changes rfl, edited .right rfl rfl⟩
      | up =>
          rw [advances]
          exact .inl ⟨_, rest, rfl, .ignored (.inl rfl), unchanged rfl⟩
      | down =>
          rw [advances]
          exact .inl ⟨_, rest, rfl, .ignored (.inr rfl), unchanged rfl⟩

end

/-! ## A whole entry -/

/-- The machine once it has begun an entry and so many steps were made. -/
def entryAfter (target : Target) (machine : Machine H) (steps : Nat) : Machine H :=
  advance^[steps] { machine with edit := machine.edit.clear, phase := .entering target }

theorem entryAfter_succ (steps : Nat) :
    machine.entryAfter target (steps + 1) = (machine.entryAfter target steps).advance :=
  Function.iterate_succ_apply' _ _ _

/-- Keys were taken one after the other, and none of them decided the entry. -/
structure Passed (keys : H → List Key) (target : Target) (machine : Machine H)
    (passed : List Key) : Prop where
  entering : ∀ taken ≤ passed.length,
    Entering keys target machine (passed.take taken) (machine.entryAfter target taken)
  passesOver : ∀ taken (inside : taken < passed.length),
    PassesOver target machine.environment (CursorText.typed (passed.take taken)).text
      (machine.entryAfter target taken) passed[taken] (machine.entryAfter target (taken + 1))

theorem passed_nil : Passed keys target machine [] where
  entering taken inside := by
    obtain rfl := Nat.le_zero.mp inside
    exact ⟨rfl, machine.edit.placed_clear, rfl, rfl⟩
  passesOver _ inside := absurd inside (Nat.not_lt_zero _)

theorem Passed.snoc (passed : Passed keys target machine front) {key : Key}
    (passesOver : PassesOver target machine.environment (CursorText.typed front).text
      (machine.entryAfter target front.length) key (machine.entryAfter target (front.length + 1)))
    (entering : Entering keys target machine (front ++ [key])
      (machine.entryAfter target (front.length + 1))) :
    Passed keys target machine (front ++ [key]) where
  entering taken inside := by
    rw [List.length_append, List.length_singleton] at inside
    rcases Nat.le_succ_iff.mp inside with earlier | rfl
    · rw [List.take_append_of_le_length earlier]
      exact passed.entering taken earlier
    · rwa [List.take_of_length_le (by simp)]
  passesOver taken inside := by
    rw [List.length_append, List.length_singleton] at inside
    rcases Nat.lt_succ_iff_lt_or_eq.mp inside with earlier | rfl
    · rw [List.take_append_of_le_length earlier.le, List.getElem_append_left earlier]
      exact passed.passesOver taken earlier
    · rwa [List.take_left' rfl, List.getElem_concat_length rfl]

/-- An entry as a whole: keys that do not decide it, then the one that does or the end of the
keys, and what the machine does at last. -/
structure EntryRun (keys : H → List Key) (target : Target) (machine : Machine H)
    (front left : List Key) (outcome : Except Fault Value) (ended : Machine H) : Prop where
  queue : keys machine.console = front ++ left
  passed : Passed keys target machine front
  decided : ∃ console,
    Decides target machine.environment (CursorText.typed front).text
      (machine.entryAfter target front.length) left.head? outcome console ∧
    Emptied machine console ended
  waiting : keys ended.console = left.tail
  ends : machine.entryAfter target (front.length + 1) =
    proceed true (storeEntry target outcome ended)

/-- A key decides, or at the latest that there is none. -/
theorem Passed.exists_entryRun (queued : Console.Queued keys) (running : machine.phase = .running)
    {taken : List Key} (passed : Passed keys target machine taken) :
    ∃ front left outcome ended, EntryRun keys target machine front left outcome ended := by
  have entering := passed.entering taken.length le_rfl
  rw [List.take_length] at entering
  rcases entering.step queued running with ⟨key, rest, waiting, passesOver, goesOn⟩ | decided
  · rw [← entryAfter_succ] at passesOver goesOn
    have shorter : (keys (machine.entryAfter target (taken.length + 1)).console).length <
        (keys (machine.entryAfter target taken.length).console).length := by
      have queue := goesOn.queue
      rw [entering.queue, waiting, List.append_assoc, List.singleton_append] at queue
      rw [waiting, ← (List.cons.inj (List.append_cancel_left queue)).2]
      exact Nat.lt_succ_self _
    exact (passed.snoc passesOver goesOn).exists_entryRun queued running
  · obtain ⟨outcome, console, ended, decides, emptied, ends⟩ := decided
    refine ⟨taken, _, outcome, ended, entering.queue, passed, ⟨console, decides, emptied⟩, ?_,
      (entryAfter_succ _).trans ends⟩
    obtain ⟨codes, same⟩ := emptied.same
    rw [same, queued.showEditLine, decides.keys_eq queued]
termination_by (keys (machine.entryAfter target taken.length).console).length
decreasing_by simpa using shorter

/-! ## What an entry leaves -/

/-- After a step a machine has looked at the break key at most, and is as it was but for what it
does next, or ends there. -/
theorem proceed_cases (inProgram : Bool) (outcome : Except Fault Unit × Machine H) :
    ∃ console,
      (console = outcome.2.console ∨ console = (Console.breakHeld outcome.2.console).2) ∧
      ((∃ phase, proceed inProgram outcome = { outcome.2 with console, phase }) ∨
        ∃ ofProgram ending,
          proceed inProgram outcome = conclude ofProgram ending { outcome.2 with console }) := by
  rcases outcome with ⟨fault | _, reached⟩
  · exact ⟨_, .inl rfl, .inr ⟨inProgram, .error fault, rfl⟩⟩
  · unfold proceed
    dsimp only
    split
    · exact ⟨_, .inl rfl, .inl ⟨reached.phase, rfl⟩⟩
    · exact ⟨_, .inl rfl, .inl ⟨reached.phase, rfl⟩⟩
    · unfold lineDone
      dsimp only
      split
      · split
        · exact ⟨_, .inr rfl, .inr ⟨true, .error .stopped, rfl⟩⟩
        · exact ⟨_, .inr rfl, .inl ⟨.running, rfl⟩⟩
      · split
        · exact ⟨_, .inl rfl, .inl ⟨.running, rfl⟩⟩
        · exact ⟨_, .inl rfl, .inr ⟨false, .ok (), rfl⟩⟩

theorem keys_conclude (queued : Console.Queued keys) (inProgram : Bool)
    (outcome : Except Fault Unit) :
    keys (machine.conclude inProgram outcome).console = keys machine.console := by
  unfold conclude
  dsimp only
  split
  all_goals
    obtain ⟨edit, glyph, codes, shown, -⟩ := exists_refreshEdit (H := H) _
    rw [shown, queued.showEditLine]
    exact queued.showReport _ _

theorem keys_proceed (queued : Console.Queued keys) (inProgram : Bool)
    (outcome : Except Fault Unit × Machine H) :
    keys (proceed inProgram outcome).console = keys outcome.2.console := by
  obtain ⟨console, looked, goesOn⟩ := proceed_cases inProgram outcome
  have kept : keys console = keys outcome.2.console := by
    rcases looked with rfl | rfl
    · rfl
    · exact queued.breakHeld _
  rcases goesOn with ⟨phase, same⟩ | ⟨ofProgram, ending, ends⟩
  · rw [same, kept]
  · rw [ends, keys_conclude queued, kept]

/-- An empty edit line stays so, however the machine goes on after a step. -/
theorem plain_proceed (inProgram : Bool) {outcome : Except Fault Unit × Machine H}
    (empty : outcome.2.edit.plain = .ended []) :
    (proceed inProgram outcome).edit.plain = .ended [] := by
  obtain ⟨console, -, ⟨phase, same⟩ | ⟨ofProgram, ending, ends⟩⟩ := proceed_cases inProgram outcome
  · rw [same]
    exact empty
  · rw [ends]
    exact (concluded_conclude ofProgram ending).plain_eq (phase_conclude ofProgram ending _)

/-- A machine that is running after a step still jumps where it was asked to. -/
theorem jump_proceed {inProgram : Bool} {outcome : Except Fault Unit × Machine H}
    (running : (proceed inProgram outcome).phase = .running) :
    (proceed inProgram outcome).jump = outcome.2.jump := by
  obtain ⟨console, -, ⟨phase, same⟩ | ⟨ofProgram, ending, ends⟩⟩ := proceed_cases inProgram outcome
  · rw [same]
  · rw [ends, phase_conclude] at running
    cases running

omit [Console H] in
/-- Storing a value changes the variables at most, and depends on nothing else of the machine. -/
theorem exists_storeEntry (target : Target) (outcome : Except Fault Value) :
    ∃ step : Attempt Variables Unit, Attempt.Atomic step ∧
      ∀ machine : Machine H, storeEntry target outcome machine = onVariables step machine := by
  rcases outcome with fault | value
  · exact ⟨throw fault, (Attempt.looks_throw fault).atomic, fun _ => rfl⟩
  · match target, value with
    | .number name, .number value =>
        exact ⟨_, Variables.atomic_assignNumber name value, fun _ => rfl⟩
    | .element name index, .number value =>
        exact ⟨_, Variables.atomic_assignElement name index value, fun _ => rfl⟩
    | .text name, .text codes =>
        exact ⟨_, Variables.atomic_assignText name codes, fun _ => rfl⟩
    | .number _, .text _ | .element _ _, .text _ | .text _, .number _ =>
        exact ⟨throw .syntaxError, (Attempt.looks_throw _).atomic, fun _ => rfl⟩

/-- What an entry leaves of the machine it was begun in, whatever came of it. -/
structure EntryLeft (keys : H → List Key) (machine : Machine H) (left : List Key)
    (result : Except Fault Unit × Machine H) (final : Machine H) : Prop where
  edit : final.edit.plain = .ended []
  waiting : keys final.console = left.tail
  line : final.line = machine.line
  program : final.program = machine.program
  variableStore : final.variableStore = result.2.variableStore
  jump : final.phase = .running → final.jump = machine.jump
  failed : ∀ fault, result.1 = .error fault →
    final.phase = .editing ∧ final.variableStore = machine.variableStore

theorem EntryRun.entryLeft {left : List Key} {outcome : Except Fault Value} {ended : Machine H}
    (queued : Console.Queued keys) (run : EntryRun keys target machine front left outcome ended) :
    EntryLeft keys machine left (storeEntry target outcome machine)
      (machine.entryAfter target (front.length + 1)) := by
  obtain ⟨step, atomic, stores⟩ := @exists_storeEntry H target outcome
  obtain ⟨console, -, emptied⟩ := run.decided
  obtain ⟨codes, same⟩ := emptied.same
  have stored : storeEntry target outcome ended =
      ((step machine.variableStore).1,
        { ended with variableStore := (step machine.variableStore).2 }) := by
    rw [stores, same]
    rfl
  have aside := aside_proceed true (storeEntry target outcome ended)
  rw [stores machine, run.ends]
  constructor
  · refine plain_proceed true ?_
    rw [stored]
    exact emptied.plain
  · rw [keys_proceed queued, stored]
    exact run.waiting
  · rw [aside.line, stored, same]
  · rw [aside.program, stored, same]
  · rw [aside.variableStore, stored]
    rfl
  · intro goesOn
    rw [jump_proceed goesOn, stored, same]
  · intro fault failed
    have fails : (step machine.variableStore).1 = .error fault := failed
    have kept : (step machine.variableStore).2 = machine.variableStore := atomic _ _ fails
    rw [aside.variableStore, stored]
    refine ⟨?_, kept⟩
    rw [fails]
    exact phase_conclude _ _ _

theorem exists_entryLeft (queued : Console.Queued keys) (running : machine.phase = .running)
    (target : Target) :
    ∃ front left outcome ended,
      EntryRun keys target machine front left outcome ended ∧
      EntryLeft keys machine left (storeEntry target outcome machine)
        (machine.entryAfter target (front.length + 1)) := by
  have nothing : Passed keys target machine [] := passed_nil
  obtain ⟨front, left, outcome, ended, run⟩ := nothing.exists_entryRun queued running
  exact ⟨front, left, outcome, ended, run, run.entryLeft queued⟩

theorem proceed_input (running : machine.phase = .running) (inProgram : Bool) :
    proceed inProgram (perform (.input target) machine) = machine.entryAfter target 0 := by
  have begun : perform (.input target) machine = (.ok (), machine.entryAfter target 0) := by
    rw [perform, startEntry, Attempt.bind_apply]
    simp [running, entryAfter]
  rw [begun]
  rfl

/--
`INPUT` stores the first entry that can be used.

Let a running program be about to carry out an `INPUT`, with any keys waiting at the console.
The keys in front are taken one by one: they change a text with a cursor, which is empty at
first, or are passed over, or they enter the text, which cannot be used and is marked and kept.
The key behind them, or that there is none, decides: for a text that has no quote in it, for the
value of an expression that fills the text, for another fault of that expression, or for a stop.

Whatever it is, the edit line is empty then, the other keys still wait, and the machine is at
the same line of the same program. The variables are as an assignment of the value leaves them,
and if that fails or there is no value, they are as they were.
-/
theorem input_stores_first {carrier : Machine H} (queued : Console.Queued keys)
    (running : machine.phase = .running) (order : machine.order? = some (.input target, carrier)) :
    carrier =
      { machine with jump := none, line := machine.upcoming, console := carrier.console } ∧
    (∀ steps, advance^[steps + 1] machine = carrier.entryAfter target steps) ∧
    ∃ front left outcome ended,
      EntryRun keys target carrier front left outcome ended ∧
      EntryLeft keys carrier left (storeEntry target outcome carrier)
        (carrier.entryAfter target (front.length + 1)) := by
  obtain ⟨turn, console, found, carried, advances⟩ := exists_turn_of_order order
  have turned : turn.machine = { machine with jump := none, line := machine.upcoming } := by
    rcases turn?_cases found with ⟨statement, direct, -⟩ | ⟨-, -, rfl⟩
    · rw [running] at direct
      cases direct
    · rfl
  rw [turned] at carried
  have busy : carrier.phase = .running := by
    rw [carried]
    exact running
  refine ⟨by rw [carried], fun steps => ?_, exists_entryLeft queued busy target⟩
  rw [Function.iterate_succ_apply, advances, proceed_input busy]
  rfl

/-- A program that asks for a text. -/
def asksTextLines : List Line :=
  [Line.ofText "10 INPUT N$"]

/-- The keys of a quote that is entered, deleted, and put right, and of one key more. -/
def retypedKeys : List Key :=
  [.code Code.quote, .enter, .delete] ++ (Code.encode "HI").map .code ++
    [.enter] ++ (Code.encode "X").map .code

/-- A machine that is about to run it, with the keys waiting. -/
def asksText : Machine (Recorder MemorySlots) :=
  { start {} ((Recorder.start {} [] (MemorySlots.empty 2)).queue retypedKeys) with
    program := ⟨Program.packLines asksTextLines ++ Program.terminator, 256⟩
    phase := .running
    jump := some 10 }

/-- The quote is refused, and the text behind it is stored as it was typed. -/
theorem input_stores_first_retyped :
    ∃ carrier, asksText.order? = some (.input (.text (Code.encode "N")), carrier) ∧
      (∃ front left outcome ended,
        EntryRun Recorder.keys (.text (Code.encode "N")) carrier front left outcome ended ∧
        EntryLeft Recorder.keys carrier left (storeEntry (.text (Code.encode "N")) outcome carrier)
          (advance^[front.length + 2] asksText)) ∧
      (advance^[3] asksText).edit.marker = some 0 ∧
      (advance^[3] asksText).edit.text = [Code.quote] ∧
      (advance^[7] asksText).variableStore.get? (Code.encode "N") .text =
        some (.text (Code.encode "HI")) ∧
      (advance^[7] asksText).edit.text = [] ∧
      (advance^[7] asksText).console.keys = (Code.encode "X").map .code := by
  have asks : asksText.order?.map Prod.fst = some (.input (.text (Code.encode "N"))) := by
    rw [← asked_eq]
    decide +kernel
  obtain ⟨⟨command, carrier⟩, order, rfl⟩ := Option.map_eq_some_iff.mp asks
  obtain ⟨-, steps, front, left, outcome, ended, run, leaves⟩ :=
    input_stores_first Recorder.queued_keys rfl order
  refine ⟨carrier, order, ⟨front, left, outcome, ended, run, ?_⟩, by decide +kernel,
    by decide +kernel, by decide +kernel, by decide +kernel, by decide +kernel⟩
  rwa [steps]

end Machine
end HomeBasic
