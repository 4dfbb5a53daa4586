import HomeBasic.Proofs.Expression.Precedence
import HomeBasic.Proofs.Machine.Reads
import HomeBasic.Proofs.Machine.Saving
import HomeBasic.Proofs.Program.Walking
import HomeBasic.Proofs.Variables.Atomic

/-!
# Reads that fail

A `READ` that fails leaves the variables alone, whatever it fails for. The next `READ` then
begins with the item that this one began with, if that item had no value. An item that had
one is behind the pointer by the time its value is refused.

Main statement: `sameItem_advance_iff`, for every store whose line numbers leave room for
one more.
-/

namespace HomeBasic

open Attempt (Atomic)

/-! ## Where the next item stands -/

/-- Where the search for an item goes on from the first line from a number on: at the first
item of the line, or behind the line if it lists none. -/
def Program.searchFrom (program : Program) (line : Nat) : DataPointer :=
  if program.bytes[(program.find line).1 + 2]? = some StatementWord.data.code then
    ⟨program.firstFrom line, some 1⟩
  else
    .fromLine (Line.numberAfter (program.firstFrom line))

/-- Every line number of a store has a number after it. -/
def Program.Numbered (program : Program) : Prop :=
  ∀ number, program.firstFrom number < 65535

theorem Program.Numbered.numberAfter_firstFrom {program : Program} (numbered : program.Numbered)
    (number : Nat) :
    Line.numberAfter (program.firstFrom number) = program.firstFrom number + 1 :=
  Nat.mod_eq_of_lt (Nat.succ_lt_succ (numbered number))

/-- The numbers of lines are far below. -/
theorem Program.Holds.numbered {program : Program} {lines : List Line}
    (holds : program.Holds lines) : program.Numbered := by
  intro number
  rcases holds.find_cases number with ⟨-, none⟩ | ⟨line, member, after, -, found, -⟩
  · rw [Program.firstFrom, none]
    decide
  · have bound := (holds.ordered.numbered line member).2
    rw [Program.firstFrom, found]
    exact Nat.lt_of_le_of_lt bound (by decide)

namespace DataPointer

/-- The item that is evaluated next begins in the line of a number, at an offset of it. -/
inductive Stands (program : Program) : DataPointer → Nat → Nat → Prop
  | here {line offset : Nat} (found : program.firstFrom line ≠ 0) :
      Stands program ⟨line, some offset⟩ (program.firstFrom line) offset
  | onward {line number offset : Nat} (found : program.firstFrom line ≠ 0)
      (next : Stands program (program.searchFrom line) number offset) :
      Stands program ⟨line, none⟩ number offset

/-- The same item is next, or none in either case. -/
def SameItem (program : Program) (first second : DataPointer) : Prop :=
  ∀ number offset, first.Stands program number offset ↔ second.Stands program number offset

variable {program : Program} {first second third : DataPointer} {line number offset : Nat}

theorem SameItem.refl (pointer : DataPointer) : pointer.SameItem program pointer :=
  fun _ _ => .rfl

theorem SameItem.symm (same : first.SameItem program second) : second.SameItem program first :=
  fun number offset => (same number offset).symm

theorem SameItem.trans (same : first.SameItem program second)
    (next : second.SameItem program third) : first.SameItem program third :=
  fun number offset => (same number offset).trans (next number offset)

theorem stands_some_iff {place : Nat} :
    (⟨line, some place⟩ : DataPointer).Stands program number offset ↔
      program.firstFrom line ≠ 0 ∧ number = program.firstFrom line ∧ offset = place := by
  constructor
  · intro stands
    cases stands with
    | here found => exact ⟨found, rfl, rfl⟩
  · rintro ⟨found, rfl, rfl⟩
    exact .here found

/-- The search does not move the item that it searches for. -/
theorem sameItem_searchFrom (found : program.firstFrom line ≠ 0) :
    (program.searchFrom line).SameItem program ⟨line, none⟩ := by
  refine fun number offset => ⟨.onward found, fun stands => ?_⟩
  cases stands with
  | onward found next => exact next

/-- An item is never searched for in front of the pointer. -/
theorem Stands.le {pointer : DataPointer} (numbered : program.Numbered)
    (stands : pointer.Stands program number offset) : pointer.line ≤ number := by
  induction stands with
  | here found => exact Program.le_firstFrom found
  | @onward line number offset found next inductionHypothesis =>
      refine (Program.le_firstFrom found).trans ?_
      have after := numbered.numberAfter_firstFrom line
      unfold Program.searchFrom at inductionHypothesis
      split at inductionHypothesis
      · exact inductionHypothesis
      · change Line.numberAfter _ ≤ number at inductionHypothesis
        omega

end DataPointer

namespace Machine

variable {H : Type} [Console H] {machine changed reader : Machine H} {target : Target}
  {fault : Fault}

/-! ## Fetching an item -/

/-- A further item of a line begins behind the one that was evaluated. -/
theorem lt_of_readItem {program : Program} {body offset next : Nat} {value : Value}
    (run : readItem program body offset machine = (.ok (value, some next), changed)) :
    offset < next := by
  rw [readItem_eq] at run
  split at run
  next => cases run
  next value reached evaluated =>
    obtain ⟨outcome, -⟩ := Prod.mk.inj run
    have answer := (Prod.mk.inj (Except.ok.inj outcome)).2
    split at answer
    next comma =>
      cases answer
      have more : reached.scanner.look.current ≠ Code.newline := by
        rw [comma]
        decide
      have behind := (reached.scanner.follows_look.trans
        (Expression.follows_evaluate evaluated)).position_le
      have further := reached.scanner.look.follows_advance.position_lt
        (Scanner.codesLeft_advance_lt more)
      change body + offset ≤ _ at behind
      omega
    next => cases answer

/-- A fetch reads the program and the variables. If it comes to a value the pointer is moved off
the item, and otherwise the same item is next. -/
structure Retrieved (machine : Machine H) (outcome : Except Fault Value × Machine H) : Prop where
  program : outcome.2.program = machine.program
  variableStore : outcome.2.variableStore = machine.variableStore
  sameItem_iff : outcome.2.data.SameItem machine.program machine.data ↔
    ∀ value, outcome.1 ≠ .ok value

omit [Console H] in
theorem retrieved_error (machine : Machine H) (fault : Fault) :
    Retrieved machine (.error fault, machine) :=
  ⟨rfl, rfl, iff_of_true (.refl _) fun _ => nofun⟩

omit [Console H] in
/-- What the search passes on its way to the item is not read again. -/
theorem Retrieved.of_moved {pointer : DataPointer} {outcome : Except Fault Value × Machine H}
    (same : pointer.SameItem machine.program machine.data)
    (retrieved : Retrieved { machine with data := pointer } outcome) :
    Retrieved machine outcome := by
  refine ⟨retrieved.program, retrieved.variableStore, ?_⟩
  rw [← retrieved.sameItem_iff]
  exact ⟨fun kept => kept.trans same.symm, fun kept => kept.trans same⟩

/-- Past an item the pointer is at another one. -/
theorem not_sameItem_pastItem (numbered : machine.program.Numbered) {line body offset : Nat}
    {value : Value} {further : Option Nat} (found : machine.program.firstFrom line ≠ 0)
    (run : readItem machine.program body offset machine = (.ok (value, further), changed)) :
    ¬(pastItem (machine.program.firstFrom line) further).SameItem machine.program
      ⟨line, some offset⟩ := by
  intro same
  have stands := (same _ _).mpr (.here found)
  cases further with
  | some next =>
      have behind := lt_of_readItem run
      have place := (DataPointer.stands_some_iff.mp stands).2.2
      omega
  | none =>
      have behind : Line.numberAfter (machine.program.firstFrom line) ≤ _ := stands.le numbered
      rw [numbered.numberAfter_firstFrom] at behind
      omega

/-- The next item is retrieved, however many turns the search is given. -/
theorem retrieved_nextItem (numbered : machine.program.Numbered) (turns : Nat) :
    Retrieved machine (nextItem turns machine) := by
  induction turns generalizing machine with
  | zero => exact retrieved_error machine _
  | succ turns inductionHypothesis =>
      rcases data : machine.data with ⟨line, place⟩
      have located : machine.program.numberAt (machine.program.find machine.data.line).1 =
          machine.program.firstFrom line := by rw [data]; rfl
      by_cases found : machine.program.firstFrom line = 0
      · rw [nextItem_of_zero (located.trans found)]
        exact retrieved_error machine _
      · cases place with
        | none =>
            rw [nextItem_of_none found (by rw [data]) located, data]
            change Retrieved machine
              (nextItem turns { machine with data := machine.program.searchFrom line })
            refine .of_moved ?_ (inductionHypothesis numbered)
            rw [data]
            exact DataPointer.sameItem_searchFrom found
        | some offset =>
            rw [nextItem_of_some found (by rw [data]) located]
            rcases run : readItem machine.program _ offset machine with
              ⟨fault | ⟨value, further⟩, changed⟩
            all_goals
              have program : changed.program = machine.program :=
                (congrArg (·.2.program) run).symm
              have variableStore : changed.variableStore = machine.variableStore :=
                (congrArg (·.2.variableStore) run).symm
            · have kept : changed.data = machine.data := (congrArg (·.2.data) run).symm
              refine ⟨program, variableStore, iff_of_true ?_ fun _ => nofun⟩
              rw [kept]
              exact .refl _
            · refine ⟨program, variableStore, iff_of_false ?_ fun none => none value rfl⟩
              rw [data]
              exact not_sameItem_pastItem numbered found run

/-! ## Putting its value in a place -/

omit [Console H] in
theorem atomic_onVariables {α : Type} {step : Attempt Variables α} (atomic : Atomic step) :
    Atomic (onVariables step : Attempt (Machine H) α) :=
  atomic.within fun _ => rfl

omit [Console H] in
theorem atomic_assign (target : Target) (value : Value) :
    Atomic (assign target value : Attempt (Machine H) Unit) := by
  unfold assign
  split
  · exact atomic_onVariables (Variables.atomic_assignNumber _ _)
  · exact atomic_onVariables (Variables.atomic_assignElement _ _ _)
  · exact atomic_onVariables (Variables.atomic_assignText _ _)
  · exact (Attempt.looks_throw _).atomic

omit [Console H] in
/-- A value that has no place changes nothing. -/
theorem deliver_error {fetched : Except Fault Value × Machine H}
    (failed : (deliver target fetched).1 = .error fault) :
    (deliver target fetched).2 = fetched.2 := by
  rcases fetched with ⟨other | value, machine⟩
  · rfl
  · unfold deliver at failed ⊢
    dsimp only at failed ⊢
    split at failed
    next same =>
      rw [if_pos same]
      exact atomic_assign target value machine fault failed
    next differs => rw [if_neg differs]

/-- A `READ` that fails has changed no variable, and the same item is next unless this one had
a value. -/
theorem perform_read_error (numbered : reader.program.Numbered)
    (failed : (perform (.read target) reader).1 = .error fault) :
    (perform (.read target) reader).2.variableStore = reader.variableStore ∧
      (perform (.read target) reader).2.program = reader.program ∧
      ((perform (.read target) reader).2.data.SameItem reader.program reader.data ↔
        ∀ value, reader.fetch.1 ≠ .ok value) := by
  rw [perform_read] at failed ⊢
  rw [deliver_error failed]
  have retrieved : Retrieved reader reader.fetch := retrieved_nextItem numbered _
  exact ⟨retrieved.variableStore, retrieved.program, retrieved.sameItem_iff⟩

/-! ## The line that reads -/

/-- A line that fails, and asks for no command but a `READ`, has changed no variable. The same
item is next unless the line has fetched a value. -/
theorem carryOut_error {scanner : Scanner} (numbered : machine.program.Numbered)
    (failed : (carryOut scanner machine).1 = .error fault)
    (reads : ∀ command reader,
      atDesk scanner (Statement.line · .execute) machine = (.ok (some command), reader) →
        ∃ target, command = .read target) :
    (carryOut scanner machine).2.variableStore = machine.variableStore ∧
      (carryOut scanner machine).2.program = machine.program ∧
      ((carryOut scanner machine).2.data.SameItem machine.program machine.data ↔
        ∀ target reader value,
          atDesk scanner (Statement.line · .execute) machine =
            (.ok (some (.read target)), reader) →
          reader.fetch.1 ≠ .ok value) := by
  have same := Untouched.frame.related
    (Untouched.frame.keeps_atDesk scanner (Statement.line · .execute)) machine
  have kept : (atDesk scanner (Statement.line · .execute) machine).2.variableStore =
      machine.variableStore := rfl
  rcases line : atDesk scanner (Statement.line · .execute) machine with
    ⟨other | _ | command, reader⟩
  all_goals rw [line] at same kept
  · have carried : carryOut scanner machine = (.error other, reader) := by
      rw [carryOut, Attempt.bind_apply, line]
    rw [carried]
    refine ⟨kept, same.program, iff_of_true ?_ fun _ _ _ read => by cases read⟩
    rw [same.data]
    exact .refl _
  · have carried : carryOut scanner machine = (.ok (), reader) := by
      rw [carryOut, Attempt.bind_apply, line]
      rfl
    rw [carried] at failed
    cases failed
  · obtain ⟨target, rfl⟩ := reads command reader line
    have carried : carryOut scanner machine = perform (.read target) reader := by
      rw [carryOut, Attempt.bind_apply, line]
    rw [carried] at failed ⊢
    rw [← same.program] at numbered ⊢
    obtain ⟨stored, program, next⟩ := perform_read_error numbered failed
    rw [← same.data]
    refine ⟨stored.trans kept, program, next.trans ⟨fun refused _ _ value found => ?_, ?_⟩⟩
    · obtain rfl := congrArg Prod.snd found
      exact refused value
    · exact fun refused value => refused target reader value rfl

omit [Console H] in
theorem variableStore_turn {turn : Turn H} (found : machine.turn? = some turn) :
    turn.machine.variableStore = machine.variableStore := by
  obtain ⟨jump, line, same⟩ := exists_of_turn? found
  rw [same]

/-- The step reads an item if its line asks for a `READ`. -/
theorem reader?_eq_some_iff {turn : Turn H} (found : machine.turn? = some turn) :
    machine.reader? = some (target, reader) ↔
      atDesk turn.scanner (Statement.line · .execute) turn.machine =
        (.ok (some (.read target)), reader) := by
  rw [reader?, order?, found, Option.bind_some]
  constructor
  · intro read
    generalize atDesk turn.scanner (Statement.line · .execute) turn.machine = outcome at read ⊢
    rcases outcome with ⟨other | _ | command, carrier⟩
    · cases read
    · cases read
    · cases command with
      | read place =>
          cases read
          rfl
      | _ => cases read
  · intro line
    rw [line]

/--
A `READ` that fails changes no variable, and keeps its item for the next one exactly if the
item had no value.

Let the line of a step fail, and let it ask for no command but a `READ`. Variables and program
are then as before. The same item is next, or none as before, unless the line came so far as to
fetch a value: one of the wrong type, or one without a place.
-/
theorem sameItem_advance_iff {turn : Turn H} (numbered : machine.program.Numbered)
    (found : machine.turn? = some turn)
    (failed : (carryOut turn.scanner turn.machine).1 = .error fault)
    (reads : ∀ command ∈ machine.asked, ∃ target, command = .read target) :
    machine.advance.variableStore = machine.variableStore ∧
      machine.advance.program = machine.program ∧
      (machine.advance.data.SameItem machine.program machine.data ↔
        ∀ target reader value, machine.reader? = some (target, reader) →
          reader.fetch.1 ≠ .ok value) := by
  have turned := untouched_turn found
  have went := Untouched.frame.proceed turn.inProgram (carryOut turn.scanner turn.machine)
  obtain ⟨program, variableStore⟩ := stores_proceed turn.inProgram
    (carryOut turn.scanner turn.machine)
  have asks : ∀ command reader,
      atDesk turn.scanner (Statement.line · .execute) turn.machine = (.ok (some command), reader) →
        ∃ target, command = .read target := by
    intro command reader line
    refine reads command ?_
    rw [asked_eq, order?, found, Option.bind_some, line]
    rfl
  rw [← turned.program] at numbered
  obtain ⟨stored, kept, next⟩ := carryOut_error numbered failed asks
  simp only [reader?_eq_some_iff found]
  rw [advance_eq_proceed found, program, variableStore, went.data, ← turned.program, ← turned.data]
  exact ⟨stored.trans (variableStore_turn found), kept, next⟩

/-- A program that reads into an array before it is there. -/
def readsElementLines : List Line :=
  [Line.ofText "10 READ A(1)", Line.ofText "20 DATA 5,6"]

/-- A machine that is about to run it. -/
def readsElement : Machine NoConsole :=
  { start {} NoConsole.mk with
    program := ⟨Program.packLines readsElementLines ++ Program.terminator, 256⟩
    phase := .running
    jump := some 10 }

/-- The item is lost with the assignment. -/
theorem sameItem_advance_iff_readsElement :
    readsElement.advance.variableStore = readsElement.variableStore ∧
      readsElement.advance.resumeLine = 10 ∧
      ¬readsElement.advance.data.SameItem readsElement.program readsElement.data := by
  have holds : readsElement.program.Holds readsElementLines :=
    ⟨rfl, ⟨by decide, by decide, by decide⟩⟩
  have asks : readsElement.asked = some (.read (.element (Code.encode "A") 1)) := by
    decide +kernel
  have line : (readsElement.turn?.map fun turn => (carryOut turn.scanner turn.machine).1) =
      some (.error .variableNotFound) := by
    decide +kernel
  obtain ⟨turn, found, failed⟩ := Option.map_eq_some_iff.mp line
  have fetched : (readsElement.reader?.map fun read => read.2.fetch.1) =
      some (.ok (.number 5)) := by
    decide +kernel
  obtain ⟨⟨target, reader⟩, reads, value⟩ := Option.map_eq_some_iff.mp fetched
  obtain ⟨kept, -, next⟩ := sameItem_advance_iff holds.numbered found failed fun command asked => by
    obtain rfl := Option.some.inj (asks.symm.trans asked)
    exact ⟨_, rfl⟩
  exact ⟨kept, by decide +kernel, fun same => next.mp same target reader _ reads value⟩

end Machine
end HomeBasic
