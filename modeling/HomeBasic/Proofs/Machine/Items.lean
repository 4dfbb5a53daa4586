import HomeBasic.Proofs.Machine.Sound
import HomeBasic.Proofs.Program.Items
import HomeBasic.Proofs.Statement.Items

/-!
# Reading the items of a program

The next item is evaluated where it stands, and it comes to what it comes to by itself
(`evaluateItem`). The pointer is moved to a line or to an item of it, up to the item that is
evaluated, and past that item if it has a value. An item that fails is ahead as before, and
where nothing is ahead the pointer ends up behind all lines.

Main statements: `readItem_apply` for the item at a place, and `fetched_nextItem` for the
next one of the program.
-/

namespace HomeBasic
namespace Machine

variable {H : Type} [Console H] {machine : Machine H} {program : Program} {line : Line}
  {item : List Code} {others : List (List Code)} {body offset : Nat}

/-- Evaluates an item by itself. -/
def evaluateItem (item : List Code) : Attempt (Machine H) Value :=
  atDesk (.ofBytes item 0) fun environment => Expression.evaluate environment .execute

/-! ## The item at a place -/

/-- What is told of the items behind one: where the next one begins. Nothing is told if
there are none, or if the item does not check. -/
def Further (config : Config) (line : Line) (item : List Code) (others : List (List Code)) :
    Option Nat → Prop
  | some next => line.ItemAt next ∧ Code.items (line.body.drop next) = others
  | none => Expression.Checks config item → others = []

section
variable {course : Scanner.Course} {scanner first second : Scanner}

omit [Console H] in
/-- Behind an item and its comma the next item begins. -/
theorem further_of_comma {config : Config} (place : line.ItemAt offset)
    (position : scanner.position = body + offset) (line_eq : scanner.line = line.body.drop offset)
    (ofItem : course.OfItem scanner item others) (twins : Scanner.Twins course first second)
    (comma : second.current = Code.comma) :
    Further config line item others (some (second.advance.position - body)) := by
  obtain ⟨_, rest, opens, closed, behind, left⟩ := ofItem.of_comma twins comma
  have ends := ofItem.lineEnd_advance twins
  obtain ⟨list, start, isList, begins, length⟩ := place
  have whole := Line.drop_of_itemsLeft isList begins length
  rw [line_eq, whole] at opens ends
  have next : Code.ItemsLeft list (Code.trimmed rest) := begins.next opens closed
  have inside : second.advance.position - body + (Code.trimmed rest).length =
      line.body.length := by
    have longer := congrArg List.length opens
    have shorter := (Code.trimmed_suffix rest).length_le
    have blank := (Code.trimmed_suffix start).length_le
    rw [List.length_append, List.length_cons] at longer
    rw [left] at ends
    omega
  refine ⟨⟨list, _, isList, next, inside⟩, ?_⟩
  rw [Line.drop_of_itemsLeft isList next inside, Code.items_trimmed, behind]

end

omit [Console H] in
/-- The scanner at a place of a line has the codes from there on ahead. -/
theorem line_ofBytes_place {after : List Code}
    (packed : program.bytes.drop body = line.body ++ Code.newline :: after)
    (oneLine : Code.newline ∉ line.body) (place : line.ItemAt offset) :
    (Scanner.ofBytes program.bytes (body + offset)).line = line.body.drop offset := by
  have within : offset ≤ line.body.length := by
    obtain ⟨_, left, _, _, length⟩ := place
    omega
  have rest : (Scanner.ofBytes program.bytes (body + offset)).rest =
      line.body.drop offset ++ Code.newline :: after := by
    change program.bytes.drop (body + offset) = _
    rw [← List.drop_drop, packed, List.drop_append_of_le_length within]
  exact Scanner.line_eq rest (fun member => oneLine (List.mem_of_mem_drop member)) rfl

/-- What comes of the item at a place, told from how its evaluation ends. -/
theorem readItem_eq (program : Program) (body offset : Nat) (machine : Machine H) :
    readItem program body offset machine =
      match Expression.evaluate machine.environment .execute
        (machine.desk (.ofBytes program.bytes (body + offset))) with
      | (.error fault, reached) => (.error fault, { machine with console := reached.console })
      | (.ok value, reached) =>
          (.ok (value,
            if reached.scanner.look.current = Code.comma then
              some (reached.scanner.look.advance.position - body)
            else
              none),
            { machine with console := reached.console }) := by
  rw [readItem, atDesk_apply, Attempt.bind_apply]
  rcases Expression.evaluate machine.environment .execute
    (machine.desk (.ofBytes program.bytes (body + offset))) with ⟨fault | value, reached⟩
  · rfl
  · dsimp only
    rw [Attempt.bind_apply, Desk.look_apply]
    dsimp only
    split <;> rfl

/-- The item at a place comes to what it comes to by itself, and if it has a value the place
of a further item is told. -/
theorem readItem_apply (machine : Machine H) {after : List Code}
    (packed : program.bytes.drop body = line.body ++ Code.newline :: after)
    (oneLine : Code.newline ∉ line.body) (place : line.ItemAt offset)
    (listed : Code.items (line.body.drop offset) = item :: others) :
    match evaluateItem item machine with
    | (.error fault, changed) => readItem program body offset machine = (.error fault, changed)
    | (.ok value, changed) => ∃ further,
        readItem program body offset machine = (.ok (value, further), changed) ∧
          Further machine.config line item others further := by
  have line_eq := line_ofBytes_place packed oneLine place
  generalize scanned : Scanner.ofBytes program.bytes (body + offset) = scanner at line_eq
  rw [← line_eq] at listed
  obtain ⟨course, ofItem, result, twins⟩ := Expression.matches_item machine.environment .execute
    machine.config.maxNesting (machine.desk scanner) listed
  have ofItem : course.OfItem scanner item others := ofItem
  rw [evaluateItem, atDesk_apply, readItem_eq, scanned]
  change (Expression.evaluate machine.environment .execute (machine.desk scanner)).1 =
    (Expression.evaluate machine.environment .execute (machine.desk (.ofBytes item 0))).1 at result
  change Desk.Twins course Eq
    (Expression.evaluate machine.environment .execute (machine.desk (.ofBytes item 0))).2.looked
    (Expression.evaluate machine.environment .execute (machine.desk scanner)).2.looked at twins
  rcases alone : Expression.evaluate machine.environment .execute
    (machine.desk (.ofBytes item 0)) with ⟨outcome, ended⟩
  rcases inList : Expression.evaluate machine.environment .execute
    (machine.desk scanner) with ⟨arrival, reached⟩
  rw [alone, inList] at result twins
  obtain rfl : arrival = outcome := result
  have console : ended.console = reached.console := twins.console
  have scanners : Scanner.Twins course ended.scanner.look reached.scanner.look := twins.scanner
  cases arrival with
  | error fault =>
      dsimp only
      rw [console]
  | ok value =>
      refine ⟨_, by dsimp only; rw [console], ?_⟩
      split
      next comma =>
        have position : scanner.position = body + offset := by rw [← scanned]; rfl
        exact further_of_comma place position line_eq ofItem scanners comma
      next last =>
        exact fun checks => ofItem.others_eq_nil scanners
          (Expression.line_eq_nil_of_checks checks alone) last

/-! ## The next item -/

/-- What comes of fetching the next item. It is the first one ahead, as it is by itself; what
was ahead stays ahead if it fails, and all but the item if it has a value and checks. -/
inductive Fetched (machine : Machine H) : Except Fault Value × Machine H → Prop
  | exhausted {pointer : DataPointer} (none : machine.data.ahead machine.program = [])
      (behind : pointer.AtEnd machine.program) :
      Fetched machine (.error .subscriptOutOfRange, { machine with data := pointer })
  | failed {item : List Code} {others : List (List Code)} {pointer : DataPointer} {fault : Fault}
      (ahead : machine.data.ahead machine.program = item :: others)
      (fails : (evaluateItem item machine).1 = .error fault)
      (place : pointer.AtItem machine.program)
      (kept : pointer.ahead machine.program = item :: others) :
      Fetched machine (.error fault, { (evaluateItem item machine).2 with data := pointer })
  | passed {item : List Code} {others : List (List Code)} {pointer : DataPointer} {value : Value}
      (ahead : machine.data.ahead machine.program = item :: others)
      (yields : (evaluateItem item machine).1 = .ok value)
      (place : pointer.AtItem machine.program)
      (left : Expression.Checks machine.config item → pointer.ahead machine.program = others) :
      Fetched machine (.ok value, { (evaluateItem item machine).2 with data := pointer })

/-- Moving the pointer on to the item ahead comes first, and changes nothing. -/
theorem Fetched.of_moved {pointer : DataPointer} {outcome : Except Fault Value × Machine H}
    (same : pointer.ahead machine.program = machine.data.ahead machine.program)
    (fetched : Fetched { machine with data := pointer } outcome) : Fetched machine outcome := by
  cases fetched with
  | exhausted none behind => exact .exhausted (same.symm.trans none) behind
  | failed ahead fails place kept => exact .failed (same.symm.trans ahead) fails place kept
  | passed ahead yields place left => exact .passed (same.symm.trans ahead) yields place left

omit [Console H] in
/-- A statement lists items if its first code says so. -/
theorem opens_iff {after : List Code}
    (packed : program.bytes.drop body = line.body ++ Code.newline :: after) :
    program.bytes[body]? = some StatementWord.data.code ↔ ∃ list, line.list? = some list := by
  have first : program.bytes[body]? = (line.body ++ Code.newline :: after)[0]? := by
    rw [← packed, List.getElem?_drop, Nat.add_zero]
  rw [first]
  simp only [Line.list?_eq_some_iff]
  cases line.body with
  | nil =>
      have different : Code.newline ≠ StatementWord.data.code := by decide
      simp [different]
  | cons code rest => simp

/-- The pointer to what is told to follow an item of a line. -/
def pastItem (number : Nat) (further : Option Nat) : DataPointer :=
  further.elim (.fromLine (Line.numberAfter number)) (⟨number, some ·⟩)

section
variable {turns number : Nat}

theorem nextItem_of_zero
    (ends : machine.program.numberAt (machine.program.find machine.data.line).1 = 0) :
    nextItem (turns + 1) machine = (.error .subscriptOutOfRange, machine) := by
  rw [nextItem, Attempt.bind_apply, Attempt.get_apply]
  dsimp only
  rw [if_pos ends]
  rfl

theorem nextItem_of_none (numbered : number ≠ 0) (seeks : machine.data.offset = none)
    (found : machine.program.numberAt (machine.program.find machine.data.line).1 = number) :
    nextItem (turns + 1) machine =
      nextItem turns { machine with
        data :=
          if machine.program.bytes[(machine.program.find machine.data.line).1 + 2]? =
              some StatementWord.data.code then
            ⟨number, some 1⟩
          else
            .fromLine (Line.numberAfter number) } := by
  rw [nextItem, Attempt.bind_apply, Attempt.get_apply]
  dsimp only
  rw [found, if_neg numbered, seeks]
  dsimp only
  split <;> rfl

theorem nextItem_of_some (numbered : number ≠ 0) (stands : machine.data.offset = some offset)
    (found : machine.program.numberAt (machine.program.find machine.data.line).1 = number) :
    nextItem (turns + 1) machine =
      match readItem machine.program ((machine.program.find machine.data.line).1 + 2) offset
        machine with
      | (.error fault, changed) => (.error fault, changed)
      | (.ok (value, further), changed) =>
          (.ok value, { changed with data := pastItem number further }) := by
  rw [nextItem, Attempt.bind_apply, Attempt.get_apply]
  dsimp only
  rw [found, if_neg numbered, stands]
  dsimp only
  rw [Attempt.bind_apply]
  rcases readItem machine.program ((machine.program.find machine.data.line).1 + 2) offset
    machine with ⟨fault | ⟨value, _ | further⟩, changed⟩ <;> rfl

end

/-- The turns that it takes to fetch the item ahead of a pointer. -/
def turnsTo (lines : List Line) (pointer : DataPointer) : Nat :=
  match pointer.offset with
  | none => (Program.onward pointer.line lines).length + 1
  | some _ => 1

section
variable {lines : List Line} (holds : machine.program.Holds lines)
include holds

omit [Console H] in
theorem atItem_pastItem {config : Config} {further : Option Nat} (member : line ∈ lines)
    (behind : Further config line item others further) :
    (pastItem line.number further).AtItem machine.program := by
  cases further with
  | none => exact DataPointer.atItem_fromLine _ _
  | some next => exact DataPointer.atItem_of_mem holds member behind.1

omit [Console H] in
/-- Past an item that checks the others are ahead, and those of the lines that follow. -/
theorem ahead_pastItem {config : Config} {further : Option Nat} (member : line ∈ lines)
    (behind : Further config line item others further) (checks : Expression.Checks config item) :
    (pastItem line.number further).ahead machine.program =
      others ++ machine.program.itemsFrom (line.number + 1) := by
  cases further with
  | none =>
      rw [behind checks, List.nil_append]
      change machine.program.itemsFrom (Line.numberAfter line.number) = _
      rw [holds.numberAfter_of_mem member]
  | some next =>
      change DataPointer.ahead machine.program ⟨line.number, some next⟩ = _
      rw [DataPointer.ahead_of_mem holds member, behind.2]

/-- Where an item stands, it is evaluated and passed. -/
theorem fetched_of_some {turns : Nat} (member : line ∈ lines)
    (data : machine.data = ⟨line.number, some offset⟩) (place : line.ItemAt offset) :
    Fetched machine (nextItem (turns + 1) machine) := by
  have onward := holds.onward_of_mem member
  obtain ⟨first, _, after, opens, found, packed⟩ :=
    (holds.find_cases line.number).resolve_left fun none => by
      rw [onward] at none
      exact List.cons_ne_nil _ _ none.1
  obtain rfl : first = line := (List.cons.inj (onward.symm.trans opens)).1.symm
  have numbered : first.number ≠ 0 := Nat.ne_of_gt (holds.ordered.numbered first member).1
  cases listed : Code.items (first.body.drop offset) with
  | nil => exact absurd listed Code.items_ne_nil
  | cons item others =>
      have ahead : machine.data.ahead machine.program =
          item :: (others ++ machine.program.itemsFrom (first.number + 1)) := by
        rw [data, DataPointer.ahead_of_mem holds member, listed]
        rfl
      have stands : machine.data.AtItem machine.program := by
        rw [data]
        exact DataPointer.atItem_of_mem holds member place
      have read := readItem_apply machine packed
        (holds.ordered.oneLine first member) place listed
      rw [nextItem_of_some numbered (by rw [data]) (by rw [data]; exact found),
        data]
      dsimp only
      rcases evaluated : evaluateItem item machine with ⟨fault | value, changed⟩
      · rw [evaluated] at read
        have same : { changed with data := machine.data } = changed := by
          have kept : changed.data = machine.data :=
            (congrArg (fun outcome => outcome.2.data) evaluated).symm
          rw [← kept]
        have failed := Fetched.failed ahead (congrArg Prod.fst evaluated) stands ahead
        rw [evaluated, same] at failed
        rw [read]
        exact failed
      · rw [evaluated] at read
        obtain ⟨further, read, behind⟩ := read
        have passed := Fetched.passed ahead (congrArg Prod.fst evaluated)
          (atItem_pastItem holds member behind) (ahead_pastItem holds member behind)
        rw [evaluated] at passed
        rw [read]
        exact passed

/-- In front of a line the pointer moves on, to its first item or past it. The same items are
ahead then, and fewer turns are needed. -/
theorem exists_pointer {after : List Code} (seeks : machine.data.offset = none)
    (member : line ∈ lines)
    (opens : Program.onward machine.data.line lines =
      line :: Program.onward (line.number + 1) lines)
    (found : machine.program.numberAt (machine.program.find machine.data.line).1 = line.number)
    (packed : machine.program.bytes.drop ((machine.program.find machine.data.line).1 + 2) =
      line.body ++ Code.newline :: after) :
    ∃ pointer : DataPointer, pointer.AtItem machine.program ∧
      pointer.ahead machine.program = machine.data.ahead machine.program ∧
      turnsTo lines pointer < turnsTo lines machine.data ∧
      ∀ turns, nextItem (turns + 1) machine = nextItem turns { machine with data := pointer } := by
  have numbered : line.number ≠ 0 := Nat.ne_of_gt (holds.ordered.numbered line member).1
  have ahead : machine.data.ahead machine.program =
      line.items ++ machine.program.itemsFrom (line.number + 1) := by
    rw [DataPointer.ahead, seeks]
    dsimp only
    rw [holds.itemsFrom_eq, opens, holds.itemsFrom_eq, List.flatMap_cons]
  have needed : turnsTo lines machine.data =
      (Program.onward (line.number + 1) lines).length + 2 := by
    rw [turnsTo, seeks, opens]
    rfl
  have moves := fun turns => @nextItem_of_none _ _ machine turns _ numbered seeks found
  split at moves
  next starts =>
    obtain ⟨list, isList⟩ := (opens_iff packed).mp starts
    refine ⟨_, DataPointer.atItem_of_mem holds member (Line.itemAt_one isList), ?_, ?_, moves⟩
    · rw [ahead, DataPointer.ahead_of_mem holds member, Line.drop_of_list isList,
        Line.items_of_list isList]
    · rw [needed]
      exact Nat.succ_lt_succ (Nat.succ_pos _)
  next other =>
    have unlisted : line.list? = none := by
      by_contra some
      exact other ((opens_iff packed).mpr (Option.ne_none_iff_exists'.mp some))
    rw [holds.numberAfter_of_mem member] at moves
    refine ⟨_, DataPointer.atItem_fromLine _ _, ?_, ?_, moves⟩
    · rw [ahead, Line.items_of_none unlisted, List.nil_append]
      rfl
    · rw [needed]
      exact Nat.lt_succ_self _

/-- The next item is fetched, given turns for the lines to pass. -/
theorem fetched_nextItem {turns : Nat} (place : machine.data.AtItem machine.program)
    (enough : turnsTo lines machine.data ≤ turns) : Fetched machine (nextItem turns machine) := by
  induction turns generalizing machine with
  | zero =>
      unfold turnsTo at enough
      split at enough <;> omega
  | succ turns inductionHypothesis =>
      rcases holds.find_cases machine.data.line with
        ⟨none, found⟩ | ⟨line, member, after, opens, found, packed⟩
      · have behind := DataPointer.atEnd_of_onward holds place none
        rw [nextItem_of_zero found]
        exact .exhausted behind.ahead_eq_nil behind
      · cases stands : machine.data.offset with
        | some offset =>
            obtain ⟨other, among, number, stood⟩ := place offset stands
            rw [holds.lines_eq] at among
            refine fetched_of_some holds among ?_ stood
            rw [number, ← stands]
        | none =>
            obtain ⟨pointer, stood, same, sooner, moves⟩ :=
              exists_pointer holds stands member opens found packed
            rw [moves]
            exact .of_moved same
              (inductionHypothesis holds stood
                (Nat.le_of_lt_succ (Nat.lt_of_lt_of_le sooner enough)))

end

end Machine
end HomeBasic
