import HomeBasic.Proofs.Machine.Items
import HomeBasic.Proofs.Machine.Untouched

/-!
# Reading item after item

A `READ` fetches the next item and puts its value in a place. While the program stays as it
is and only reading moves the pointer, the items ahead are those from which so many were
dropped as were fetched. So they are fetched in their order and each of them once. An item
that fails is fetched again by the next `READ`, and when none is left every `READ` fails.

Main statement: `fetched_in_order`, for programs whose lines were checked, which they are if
they were entered (`checked_press_enter`).
-/

namespace HomeBasic

/-- The lines of a program passed the check of the editor. -/
def Program.Checked (config : Config) (program : Program) : Prop :=
  ∃ lines, program.Holds lines ∧ ∀ line ∈ lines, Statement.Checks config line.body

namespace Machine

variable {H : Type} [Console H] {machine changed reader : Machine H} {target : Target}
  {lines : List Line} {outcome : Except Fault Value × Machine H}

/-- An enter leaves only lines in the program that passed the check. -/
theorem checked_press_enter (oneLine : Code.newline ∉ machine.edit.text)
    (checked : machine.program.Checked machine.config) :
    (machine.press .enter).2.program.Checked machine.config := by
  rcases program_press_enter oneLine with same | ⟨taken, numbered⟩
  · rw [same]
    exact checked
  · obtain ⟨lines, holds, checks⟩ := checked
    refine ⟨_, holds_press_enter holds oneLine numbered taken, fun line member => ?_⟩
    rcases Program.mem_inserted.mp member with ⟨before, _⟩ | ⟨_, rfl⟩
    · exact checks line before
    · exact ((press_enter_iff oneLine numbered).mp ⟨taken, rfl⟩).1

/-! ## One fetch -/

/-- How many items a fetch uses up. -/
def used : Except Fault Value → Nat
  | .ok _ => 1
  | .error _ => 0

theorem Fetched.placed (fetched : Fetched machine outcome) :
    outcome.2.config = machine.config ∧ outcome.2.program = machine.program ∧
      outcome.2.data.AtItem machine.program := by
  cases fetched with
  | exhausted none behind => exact ⟨rfl, rfl, behind.atItem⟩
  | failed ahead fails place kept => exact ⟨rfl, rfl, place⟩
  | passed ahead yields place left => exact ⟨rfl, rfl, place⟩

/-- A fetch evaluates the first item ahead, and uses it up if it has a value. -/
theorem Fetched.first (fetched : Fetched machine outcome)
    (checks : ∀ item ∈ machine.data.ahead machine.program,
      Expression.Checks machine.config item) :
    outcome.2.data.ahead machine.program =
        (machine.data.ahead machine.program).drop (used outcome.1) ∧
      match (machine.data.ahead machine.program).head? with
      | some item => outcome.1 = (evaluateItem item machine).1
      | none =>
          outcome.1 = .error .subscriptOutOfRange ∧ outcome.2.data.AtEnd machine.program := by
  cases fetched with
  | exhausted none behind =>
      rw [none]
      exact ⟨behind.ahead_eq_nil, rfl, behind⟩
  | failed ahead fails place kept =>
      rw [ahead]
      exact ⟨kept, fails.symm⟩
  | passed ahead yields place left =>
      rw [ahead] at checks ⊢
      exact ⟨left (checks _ List.mem_cons_self), yields.symm⟩

/-! ## The step that fetches -/

/-- The place for the next item, if the next step is to read one, and the machine that
fetches it. -/
def reader? (machine : Machine H) : Option (Target × Machine H) :=
  match machine.order? with
  | some (.read target, reader) => some (target, reader)
  | _ => none

/-- Fetches the next item. -/
def fetch (reader : Machine H) : Except Fault Value × Machine H :=
  nextItem (reader.program.bytes.length + 2) reader

/-- Puts a value that was fetched in a place of its kind. -/
def deliver (target : Target) : Except Fault Value × Machine H → Except Fault Unit × Machine H
  | (.error fault, machine) => (.error fault, machine)
  | (.ok value, machine) =>
      if value.isText = target.isText then assign target value machine
      else (.error .syntaxError, machine)

omit [Console H] in
theorem untouched_deliver (target : Target) (fetched : Except Fault Value × Machine H) :
    Untouched fetched.2 (deliver target fetched).2 := by
  rcases fetched with ⟨fault | value, machine⟩
  · exact .refl machine
  · unfold deliver
    dsimp only
    split
    · exact Untouched.frame.related (Untouched.frame.keeps_assign target value) machine
    · exact .refl machine

theorem perform_read (target : Target) (reader : Machine H) :
    perform (.read target) reader = deliver target reader.fetch := by
  change read target reader = _
  rw [read, Attempt.bind_apply, Attempt.get_apply]
  dsimp only
  rw [Attempt.bind_apply, fetch]
  rcases nextItem (reader.program.bytes.length + 2) reader with ⟨fault | value, machine⟩
  · rfl
  · dsimp only [deliver]
    split
    · rfl
    next same => rw [if_pos (not_not.mp same)]

theorem advance_of_reader (reads : machine.reader? = some (target, reader)) :
    Untouched machine reader ∧
      ∃ inProgram, machine.advance = proceed inProgram (deliver target reader.fetch) := by
  unfold reader? at reads
  split at reads
  next order =>
    cases reads
    obtain ⟨same, inProgram, carried⟩ := advance_of_order order
    rw [perform_read] at carried
    exact ⟨same, inProgram, carried⟩
  next => cases reads

/-- Of a step that fetches, the fetch alone moves the pointer. -/
theorem untouched_advance_of_reader (reads : machine.reader? = some (target, reader)) :
    Untouched reader.fetch.2 machine.advance := by
  obtain ⟨-, inProgram, carried⟩ := advance_of_reader reads
  rw [carried]
  exact (untouched_deliver target _).trans (Untouched.frame.proceed _ _)

theorem fetched_fetch (holds : reader.program.Holds lines)
    (place : reader.data.AtItem reader.program) : Fetched reader reader.fetch := by
  refine fetched_nextItem holds place ?_
  have enough := holds.length_lt
  unfold turnsTo
  split
  · have fewer := List.length_filter_le (reader.data.line ≤ ·.number) lines
    change (lines.filter (reader.data.line ≤ ·.number)).length + 1 ≤ _
    omega
  · omega

/-! ## Step after step -/

/-- What may happen between one `READ` and the next: a step without a command that touches the
items, a key that leaves the program as it is, another edit line, or what the console does. -/
inductive Lull : Machine H → Machine H → Prop
  | advance {machine : Machine H}
      (leaves : ∀ command, machine.asked = some command → command.LeavesItems) :
      Lull machine machine.advance
  | press {machine : Machine H} (key : Key)
      (same : (machine.press key).2.program = machine.program) : Lull machine (machine.press key).2
  | retype {machine : Machine H} : Lull machine { machine with edit := machine.edit.clear }
  | outside {machine : Machine H} (console : H) : Lull machine { machine with console }

theorem Lull.untouched (lull : Lull machine changed) : Untouched machine changed := by
  cases lull with
  | advance leaves => exact untouched_advance leaves
  | press key same =>
      by_cases enter : key = .enter
      · subst enter
        exact ⟨data_press_enter.1, same, data_press_enter.2⟩
      · exact untouched_press enter
  | retype => exact ⟨rfl, rfl, rfl⟩
  | outside console => exact ⟨rfl, rfl, rfl⟩

/-- A machine reads, one `READ` after the other, and has fetched so many items. -/
inductive Reading (first : Machine H) : Nat → Machine H → Prop
  | start : Reading first 0 first
  | read {done : Nat} {machine reader : Machine H} {target : Target}
      (before : Reading first done machine) (reads : machine.reader? = some (target, reader)) :
      Reading first (done + used reader.fetch.1) machine.advance
  | lull {done : Nat} {machine changed : Machine H} (before : Reading first done machine)
      (lull : Lull machine changed) : Reading first done changed

/-- Of the items from a number on so many are behind the pointer, and the others are ahead. -/
structure Stage (first : Machine H) (number done : Nat) (machine : Machine H) : Prop where
  config : machine.config = first.config
  program : machine.program = first.program
  place : machine.data.AtItem first.program
  ahead : machine.data.ahead first.program = (first.program.itemsFrom number).drop done

section
variable {first : Machine H} {number done : Nat}

omit [Console H] in
theorem stage_start (restored : first.data = .fromLine number) : Stage first number 0 first where
  config := rfl
  program := rfl
  place := by
    rw [restored]
    exact DataPointer.atItem_fromLine _ _
  ahead := by
    rw [restored]
    rfl

omit [Console H] in
theorem Stage.untouched (stage : Stage first number done machine)
    (same : Untouched machine changed) : Stage first number done changed where
  config := same.config.trans stage.config
  program := same.program.trans stage.program
  place := by
    rw [same.data]
    exact stage.place
  ahead := by
    rw [same.data]
    exact stage.ahead

/-- What comes of the next fetch, and how far the pointer is then. -/
theorem Stage.fetch (checked : first.program.Checked first.config)
    (stage : Stage first number done reader) :
    Stage first number (done + used reader.fetch.1) reader.fetch.2 ∧
      match (first.program.itemsFrom number)[done]? with
      | some item => reader.fetch.1 = (evaluateItem item reader).1
      | none => reader.fetch.1 = .error .subscriptOutOfRange ∧
          reader.fetch.2.data.AtEnd first.program := by
  obtain ⟨lines, holds, checks⟩ := checked
  obtain ⟨config, program, place, ahead⟩ := stage
  have fetched : Fetched reader reader.fetch :=
    fetched_fetch (by rw [program]; exact holds) (by rw [program]; exact place)
  obtain ⟨sameConfig, sameProgram, still⟩ := fetched.placed
  have remain := fetched.first fun item member => by
    rw [program] at member
    obtain ⟨line, stored, item⟩ := DataPointer.exists_of_mem_ahead holds place member
    rw [config]
    exact Statement.checks_of_mem_items (holds.ordered.oneLine line stored) (checks line stored)
      _ item
  rw [program] at sameProgram still remain
  rw [ahead, List.drop_drop, List.head?_drop] at remain
  exact ⟨⟨sameConfig.trans config, sameProgram, still, remain.1⟩, remain.2⟩

/-- However a machine goes on reading, it has passed as many items as it has fetched. -/
theorem Reading.stage (checked : first.program.Checked first.config)
    (restored : first.data = .fromLine number) (reading : Reading first done machine) :
    Stage first number done machine := by
  induction reading with
  | start => exact stage_start restored
  | read before reads inductionHypothesis =>
      have stage := inductionHypothesis.untouched (advance_of_reader reads).1
      exact (stage.fetch checked).1.untouched (untouched_advance_of_reader reads)
  | lull before lull inductionHypothesis => exact inductionHypothesis.untouched lull.untouched

/--
Items are read in their order, each of them once.

Let a machine start with the pointer in front of a line, as after a `RESTORE`, in a program
whose lines were checked, and go on with the program as it is and no other command that moves
the pointer. A `READ` then puts in its place what it fetches: the item whose number is that of
the items fetched so far comes to what it comes to by itself, at that moment. It is used up if
it has a value, and ahead as before if it fails. When none is left there is nothing to fetch,
and the pointer is left behind all lines.
-/
theorem fetched_in_order (checked : first.program.Checked first.config)
    (restored : first.data = .fromLine number) (reading : Reading first done machine)
    (reads : machine.reader? = some (target, reader)) :
    let items := first.program.itemsFrom number
    let fetched := reader.fetch.1
    (∃ inProgram, machine.advance = proceed inProgram (deliver target reader.fetch)) ∧
      machine.advance.data.ahead first.program = items.drop (done + used fetched) ∧
      match items[done]? with
      | some item => fetched = (evaluateItem item reader).1
      | none => fetched = .error .subscriptOutOfRange ∧
          machine.advance.data.AtEnd first.program := by
  intro items fetched
  have stage := (reading.stage checked restored).untouched (advance_of_reader reads).1
  obtain ⟨passed, outcome⟩ := stage.fetch checked
  have same := untouched_advance_of_reader reads
  refine ⟨(advance_of_reader reads).2, (passed.untouched same).ahead, ?_⟩
  rw [same.data]
  exact outcome

end

/-- A program that reads two items. -/
def readsTwoLines : List Line :=
  [Line.ofText "10 READ A", Line.ofText "20 READ A", Line.ofText "30 DATA 1,2"]

/-- A machine that is about to run it. -/
def readsTwo : Machine NoConsole :=
  { start {} NoConsole.mk with
    program := ⟨Program.packLines readsTwoLines ++ Program.terminator, 256⟩
    phase := .running
    jump := some 10 }

/-- When one item was read, the second one is next. -/
theorem fetched_in_order_readsTwo :
    readsTwo.advance.reader?.map (·.2.fetch.1) = some (.ok (.number 2)) := by
  have checked : readsTwo.program.Checked readsTwo.config := by
    refine ⟨readsTwoLines, ⟨rfl, ⟨by decide, by decide, by decide⟩⟩, ?_⟩
    simp only [readsTwoLines, List.forall_mem_cons]
    exact ⟨⟨_, rfl⟩, ⟨_, rfl⟩, ⟨_, rfl⟩, nofun⟩
  have once : readsTwo.reader?.map (fun found => used found.2.fetch.1) = some 1 := by
    decide +kernel
  have value : readsTwo.advance.reader?.map (fun found =>
      (evaluateItem (Code.encode "2") found.2).1) = some (.ok (.number 2)) := by
    decide +kernel
  obtain ⟨⟨target, reader⟩, reads, one⟩ := Option.map_eq_some_iff.mp once
  obtain ⟨⟨another, further⟩, again, two⟩ := Option.map_eq_some_iff.mp value
  have reading := Reading.start.read reads
  rw [one] at reading
  obtain ⟨-, -, fetched⟩ := fetched_in_order checked rfl reading again
  rw [again]
  exact congrArg some (fetched.trans two)
end Machine
end HomeBasic
