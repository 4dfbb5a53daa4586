import Mathlib.Data.List.Sort
import HomeBasic.Proofs.Program.Sound

/-!
# The program store is a finite map

What a store means is a map from line numbers to statements (`Statements`). Its bytes are
the packing of that map, and everything that walks the store reads the map
(`Program.Represents`).

Main statements: a store that holds the lines of a map represents it (`Holds.represents`),
storing a statement changes the map at its line number, and does so exactly when the
packing of the changed map has room (`Holds.insert_eq`), so a store is a map after any
edits (`represents_edited`).
-/

namespace HomeBasic
namespace Program

/-! ## Maps of statements -/

/-- A statement and the number it is stored under; an empty statement deletes. -/
structure Entry where
  number : Nat
  statement : List Code
  numbered : 0 < number ∧ number ≤ Line.maxNumber
  oneLine : Code.newline ∉ statement

/-- The statement of each line number, none where there is no such line. -/
structure Statements where
  at? : Nat → Option (List Code)
  numbered : ∀ {number statement}, at? number = some statement →
    0 < number ∧ number ≤ Line.maxNumber
  oneLine : ∀ {number statement}, at? number = some statement → Code.newline ∉ statement

namespace Statements

/-- No line has a statement. -/
def none : Statements where
  at? _ := .none
  numbered found := nomatch found
  oneLine found := nomatch found

/-- The map with a statement under its number, or with none if the statement is empty. -/
def stored (statements : Statements) (entry : Entry) : Statements where
  at? := Function.update statements.at? entry.number
    (if entry.statement = [] then .none else some entry.statement)
  numbered {number statement} found := by
    by_cases same : number = entry.number
    · exact same ▸ entry.numbered
    · rw [Function.update_of_ne same] at found
      exact statements.numbered found
  oneLine {number statement} found := by
    by_cases same : number = entry.number
    · subst same
      rw [Function.update_self, Option.ite_none_left_eq_some] at found
      exact Option.some.inj found.2 ▸ entry.oneLine
    · rw [Function.update_of_ne same] at found
      exact statements.oneLine found

/-- The lines of the map in ascending order. -/
def lines (statements : Statements) : List Line :=
  (List.range' 1 Line.maxNumber).filterMap fun number =>
    (statements.at? number).map (Line.mk number)

/-- The map as it is packed. -/
def packed (statements : Statements) : List Code :=
  packLines statements.lines ++ terminator

/-- The last line below a number. -/
def before? (statements : Statements) (number : Nat) : Option Line :=
  (below number statements.lines).getLast?

/-- The first line numbered `number` or higher. -/
def from? (statements : Statements) (number : Nat) : Option Line :=
  statements.lines.find? (number ≤ ·.number)

/-- The bytes that the lines below a number take. -/
def offset (statements : Statements) (number : Nat) : Nat :=
  (packLines (below number statements.lines)).length

variable (statements : Statements)

@[simp] theorem lines_none : none.lines = [] :=
  List.filterMap_eq_nil_iff.mpr fun _ _ => rfl

theorem mem_lines {line : Line} :
    line ∈ statements.lines ↔ statements.at? line.number = some line.body := by
  simp only [lines, List.mem_filterMap, List.mem_range'_1, Option.map_eq_some_iff]
  constructor
  · rintro ⟨number, _, body, found, rfl⟩
    exact found
  · intro found
    have numbered := statements.numbered found
    exact ⟨line.number, by omega, line.body, found, rfl⟩

theorem ordered_lines : Ordered statements.lines where
  ascending := by
    have ascending : (List.range' 1 Line.maxNumber).Pairwise (· < ·) :=
      List.pairwise_lt_range' 1
    refine List.pairwise_filterMap.mpr (ascending.imp fun {first second} less => ?_)
    rintro line here other there
    obtain ⟨_, _, rfl⟩ := Option.map_eq_some_iff.mp here
    obtain ⟨_, _, rfl⟩ := Option.map_eq_some_iff.mp there
    exact less
  numbered line member := statements.numbered (statements.mem_lines.mp member)
  oneLine line member := statements.oneLine (statements.mem_lines.mp member)

end Statements

/-- Lines in order are known from which they are. -/
theorem Ordered.eq_of_mem_iff {first second : List Line} (ordered : Ordered first)
    (other : Ordered second) (same : ∀ line, line ∈ first ↔ line ∈ second) :
    first = second := by
  have : Std.Irrefl fun line other : Line => line.number < other.number :=
    ⟨fun line => Nat.lt_irrefl line.number⟩
  have : Std.Antisymm fun line other : Line => line.number < other.number :=
    ⟨fun line other less more => absurd less (Nat.lt_asymm more)⟩
  exact ordered.ascending.eq_of_mem_iff other.ascending fun {line} => same line

theorem mem_inserted {number : Nat} {statement : List Code} {lines : List Line} {line : Line} :
    line ∈ inserted number statement lines ↔
      (line ∈ lines ∧ line.number ≠ number) ∨ (statement ≠ [] ∧ line = ⟨number, statement⟩) := by
  cases statement <;> simp [inserted, below, above] <;> grind

theorem Statements.lines_stored (statements : Statements) (entry : Entry) :
    (statements.stored entry).lines = inserted entry.number entry.statement statements.lines := by
  refine (statements.stored entry).ordered_lines.eq_of_mem_iff
    (statements.ordered_lines.inserted entry.numbered entry.oneLine) fun line => ?_
  rw [mem_lines, mem_inserted, mem_lines]
  obtain ⟨number, body⟩ := line
  by_cases same : number = entry.number
  · subst same
    simp only [stored, Function.update_self]
    grind
  · simp only [stored, Function.update_of_ne same]
    grind

/-! ## Reading packed lines -/

section
variable {lines : List Line}

theorem headLine?_packLines (ordered : Ordered lines) :
    headLine? (packLines lines ++ terminator) = lines.head? := by
  cases lines with
  | nil => rfl
  | cons line rest =>
      have numbered := ordered.numbered line (by simp)
      rw [packLines_cons, List.append_assoc]
      refine headLine?_packLine (Nat.ne_of_gt numbered.1) ?_ (ordered.oneLine line (by simp)) _
      exact Nat.lt_of_le_of_lt numbered.2 (by decide)

theorem linesFrom_packLines (ordered : Ordered lines) {steps : Nat}
    (enough : lines.length < steps) :
    linesFrom steps (packLines lines ++ terminator) = lines := by
  induction lines generalizing steps with
  | nil => cases steps <;> rfl
  | cons line lines inductionHypothesis =>
      obtain ⟨steps, rfl⟩ : ∃ fewer, steps = fewer + 1 := ⟨steps - 1, by omega⟩
      rw [linesFrom, headLine?_packLines ordered]
      dsimp only [List.head?_cons]
      rw [headLength_packLines ordered, packLines_cons, List.append_assoc, List.drop_left,
        inductionHypothesis ordered.tail (by simpa using enough)]

/-- The line before the place where a walk stops is the last of those below the number. -/
theorem findFrom_snd_packLines (ordered : Ordered lines) {steps : Nat}
    (enough : lines.length < steps) (number offset : Nat) (previous : Option Nat) :
    (findFrom number steps (packLines lines ++ terminator) offset previous).2 =
      (((below number lines).getLast?.map fun line =>
        offset + (packLines (below line.number lines)).length).or previous) := by
  induction lines generalizing steps offset previous with
  | nil =>
      obtain ⟨steps, rfl⟩ : ∃ fewer, steps = fewer + 1 := ⟨steps - 1, by omega⟩
      rfl
  | cons line lines inductionHypothesis =>
      obtain ⟨steps, rfl⟩ : ∃ fewer, steps = fewer + 1 := ⟨steps - 1, by omega⟩
      rw [findFrom_cons ordered]
      split
      next stops =>
        rw [ordered.below_eq_nil stops]
        rfl
      next goesOn =>
        rw [below_cons_of_lt (Nat.lt_of_not_le goesOn),
          inductionHypothesis ordered.tail (by simpa using enough), List.getLast?_cons]
        cases last : (below number lines).getLast? with
        | none =>
            rw [Option.map_none, Option.none_or, Option.getD_none, Option.map_some,
              ordered.below_eq_nil (Nat.le_refl _)]
            rfl
        | some other =>
            have member : other ∈ lines :=
              (List.mem_filter.mp (List.mem_of_getLast? last)).1
            rw [Option.map_some, Option.some_or, Option.getD_some, Option.map_some,
              Option.some_or, below_cons_of_lt (ordered.lt_of_mem member), packLines_cons,
              List.length_append, Nat.add_assoc]

/-- A line is the first one numbered at least as high as itself. -/
theorem Ordered.find?_of_mem (ordered : Ordered lines) {line : Line} (member : line ∈ lines) :
    lines.find? (line.number ≤ ·.number) = some line := by
  induction lines with
  | nil => cases member
  | cons first lines inductionHypothesis =>
      rcases List.mem_cons.mp member with rfl | later
      · exact List.find?_cons_of_pos (by simp)
      · have lower := ordered.lt_of_mem later
        rw [List.find?_cons_of_neg (by simpa using lower)]
        exact inductionHypothesis ordered.tail later

/-- No two lines have one number. -/
theorem Ordered.eq_of_number (ordered : Ordered lines) {line other : Line}
    (member : line ∈ lines) (among : other ∈ lines) (same : other.number = line.number) :
    other = line := by
  have first := ordered.find?_of_mem among
  rw [same, ordered.find?_of_mem member] at first
  exact (Option.some.inj first).symm

theorem Ordered.numberedBy_of_mem (ordered : Ordered lines) {line : Line} (member : line ∈ lines) :
    numberedBy line.number lines = [line] := by
  have alone : Ordered [line] :=
    ⟨List.pairwise_singleton _ _, by simpa using ordered.numbered line member,
      by simpa using ordered.oneLine line member⟩
  refine Ordered.eq_of_mem_iff (ordered.filter _) alone fun other => ?_
  simp only [numberedBy, List.mem_filter, beq_iff_eq, List.mem_singleton]
  constructor
  · rintro ⟨among, same⟩
    exact ordered.eq_of_number member among same
  · rintro rfl
    exact ⟨member, rfl⟩

/-- Lines stay as they are when one of them is stored again. -/
theorem Ordered.inserted_of_mem (ordered : Ordered lines) {line : Line} (member : line ∈ lines)
    (statement : line.body ≠ []) :
    Program.inserted line.number line.body lines = lines := by
  have after := ordered.inserted (ordered.numbered line member) (ordered.oneLine line member)
  refine after.eq_of_mem_iff ordered fun other => ?_
  rw [mem_inserted]
  constructor
  · rintro (⟨among, _⟩ | ⟨_, rfl⟩)
    · exact among
    · exact member
  · intro among
    by_cases same : other.number = line.number
    · exact .inr ⟨statement, ordered.eq_of_number member among same⟩
    · exact .inl ⟨among, same⟩

/-- The lines of a number and above it are those that are not below it. -/
theorem Ordered.numberedBy_append_above (ordered : Ordered lines) (number : Nat) :
    numberedBy number lines ++ above number lines = lines.filter (number ≤ ·.number) := by
  have parts := congrArg (List.filter (number ≤ ·.number)) (ordered.below_append number)
  rw [← parts, List.append_assoc, List.filter_append]
  have lower : (below number lines).filter (number ≤ ·.number) = [] :=
    List.filter_eq_nil_iff.mpr fun line member => by
      have := (List.mem_filter.mp member).2
      simpa using this
  rw [lower, List.nil_append, List.filter_eq_self.mpr]
  intro line member
  rcases List.mem_append.mp member with here | after
  · have := (List.mem_filter.mp here).2
    simp only [beq_iff_eq] at this
    exact decide_eq_true (Nat.le_of_eq this.symm)
  · have := (List.mem_filter.mp after).2
    simp only [decide_eq_true_eq] at this ⊢
    exact Nat.le_of_lt this

end

namespace Holds

variable {program : Program} {lines : List Line}

theorem lines_eq (holds : program.Holds lines) : program.lines = lines := by
  have enough := holds.length_lt
  rw [Program.lines, holds.bytes] at *
  exact linesFrom_packLines holds.ordered enough

theorem find_eq (holds : program.Holds lines) (number : Nat) :
    program.find number =
      ((packLines (below number lines)).length, (below number lines).getLast?.map fun line =>
        (packLines (below line.number lines)).length) := by
  refine Prod.ext (holds.find_fst number) ?_
  have enough := holds.length_lt
  rw [find, holds.bytes] at *
  rw [findFrom_snd_packLines holds.ordered enough, Option.or_none]
  simp only [Nat.zero_add]

/-- The line where a walk stops is the first numbered high enough. -/
theorem lineAt?_find (holds : program.Holds lines) (number : Nat) :
    program.lineAt? (packLines (below number lines)).length =
      lines.find? (number ≤ ·.number) := by
  have ordered := holds.ordered.filter (number ≤ ·.number)
  have place := holds.drop_find number
  rw [holds.find_fst, ← List.append_assoc, ← packLines_append,
    holds.ordered.numberedBy_append_above] at place
  rw [lineAt?, place, headLine?_packLines ordered, List.head?_filter]

/-- A line of the store is packed where a walk for its number stops. -/
theorem drop_find_of_mem (holds : program.Holds lines) {line : Line} (member : line ∈ lines) :
    ∃ after, program.bytes.drop ((program.find line.number).1 + 2) =
      line.body ++ Code.newline :: after := by
  have place := holds.drop_find line.number
  have head : (lines.filter (line.number ≤ ·.number)).head? = some line := by
    rw [List.head?_filter]
    exact holds.ordered.find?_of_mem member
  obtain ⟨rest, opens⟩ := List.head?_eq_some_iff.mp head
  rw [← List.append_assoc, ← packLines_append, holds.ordered.numberedBy_append_above, opens,
    packLines_cons] at place
  refine ⟨packLines rest ++ terminator, ?_⟩
  rw [← List.drop_drop, place]
  simp [packLine, Bytes.toLittleEndian]

/-- Storing a line of the store again leaves the store as it is, and there is room for it. -/
theorem insert_of_mem (holds : program.Holds lines)
    (within : program.bytes.length ≤ program.capacity) {line : Line} (member : line ∈ lines)
    (statement : line.body ≠ []) : program.insert line.number line.body = .ok program := by
  have numbered := holds.ordered.numbered line member
  have some : line.body.isEmpty = false := List.isEmpty_eq_false_iff.mpr statement
  have existing : program.lengthOf line.number = line.body.length + 3 := by
    rw [holds.lengthOf_eq numbered.1, holds.ordered.numberedBy_of_mem member]
    simp [packLines, length_packLine]
  have part : line.body.length + 3 ≤ program.bytes.length := by
    have whole := congrArg List.length (holds.bytes_eq line.number)
    rw [← existing, holds.lengthOf_eq numbered.1, whole]
    simp only [List.length_append]
    omega
  cases run : program.insert line.number line.body with
  | error fault =>
      simp only [Program.insert, some, Bool.false_eq_true, if_false, existing] at run
      split at run
      · omega
      · cases run
  | ok changed =>
      have after := holds.insert numbered (holds.ordered.oneLine line member) run
      rw [holds.ordered.inserted_of_mem member statement] at after
      have bytes : changed.bytes = program.bytes := after.bytes.trans holds.bytes.symm
      have capacity := capacity_of_insert run
      cases changed
      cases program
      simp only at bytes capacity
      rw [bytes, capacity]

end Holds

/-! ## What a store means -/

/-- A store is the packing of a map, and all that reads the store reads the map. -/
structure Represents (program : Program) (statements : Statements) : Prop where
  bytes : program.bytes = statements.packed
  within : program.bytes.length ≤ program.capacity
  lines : program.lines = statements.lines
  ascending : program.lines.Pairwise (·.number < ·.number)
  get? : ∀ number, program.get? number = (statements.at? number).map (Line.mk number)
  find : ∀ number, program.find number =
    (statements.offset number,
      (statements.before? number).map fun line => statements.offset line.number)
  found : ∀ number, program.lineAt? (program.find number).1 = statements.from? number
  previous : ∀ number,
    (program.find number).2.bind program.lineAt? = statements.before? number

namespace Holds

variable {program : Program} {statements : Statements}

/-- A store that holds the lines of a map represents the map. -/
theorem represents (holds : program.Holds statements.lines)
    (within : program.bytes.length ≤ program.capacity) : program.Represents statements where
  bytes := holds.bytes
  within := within
  lines := holds.lines_eq
  ascending := by
    rw [holds.lines_eq]
    exact holds.ordered.ascending
  get? number := by
    rw [Program.get?, holds.find_fst, holds.lineAt?_find]
    cases found : statements.at? number with
    | none =>
        refine Option.filter_eq_none_iff.mpr fun line first same => ?_
        have member := statements.mem_lines.mp (List.mem_of_find?_eq_some first)
        rw [eq_of_beq same, found] at member
        cases member
    | some body =>
        have member : ⟨number, body⟩ ∈ statements.lines := statements.mem_lines.mpr found
        rw [holds.ordered.find?_of_mem member]
        simp
  find := holds.find_eq
  found number := by
    rw [holds.find_fst, holds.lineAt?_find]
    rfl
  previous number := by
    rw [holds.find_eq, Option.bind_map, Statements.before?]
    cases last : (below number statements.lines).getLast? with
    | none => rfl
    | some line =>
        have member := (List.mem_filter.mp (List.mem_of_getLast? last)).1
        exact (holds.lineAt?_find line.number).trans (holds.ordered.find?_of_mem member)

/-- Storing a statement changes the map at its number; it is refused where there is no room. -/
theorem insert_eq (holds : program.Holds statements.lines) (entry : Entry) :
    program.insert entry.number entry.statement =
      if entry.statement = [] ∨ (statements.stored entry).packed.length ≤ program.capacity then
        .ok ⟨(statements.stored entry).packed, program.capacity⟩
      else
        .error .outOfMemory := by
  have whole := congrArg List.length (holds.bytes_eq entry.number)
  have line := holds.lengthOf_eq entry.numbered.1
  have after := holds.drop_line entry.numbered.1
  rw [line] at after
  simp only [List.length_append] at whole
  simp only [Program.insert, holds.take_find, line, after, Statements.packed,
    Statements.lines_stored, inserted]
  cases entry.statement with
  | nil => simp [packLines_append]
  | cons code rest =>
      have packed : packLines (below entry.number statements.lines ++
          [⟨entry.number, code :: rest⟩] ++ above entry.number statements.lines) ++ terminator =
          packLines (below entry.number statements.lines) ++
            packLine entry.number (code :: rest) ++
              (packLines (above entry.number statements.lines) ++ terminator) := by
        simp [packLines]
      have length : program.bytes.length -
          (packLines (numberedBy entry.number statements.lines)).length +
            ((code :: rest).length + 3) =
          (packLines (below entry.number statements.lines) ++
            packLine entry.number (code :: rest) ++
              (packLines (above entry.number statements.lines) ++ terminator)).length := by
        simp only [List.length_append, length_packLine]
        omega
      simp only [List.isEmpty_cons, Bool.false_eq_true, if_false, reduceCtorEq, false_or, packed,
        length]
      rw [← ite_not]
      simp only [Nat.not_lt]

end Holds

/-! ## Edits -/

/-- What changes a store: a statement is stored, or all lines go. -/
inductive Edit where
  | store (entry : Entry)
  | clear

/-- The store after an edit; one that is refused leaves the store as it is. -/
def edit (program : Program) : Edit → Program
  | .store entry => (program.insert entry.number entry.statement).toOption.getD program
  | .clear => program.clear

/-- The map after an edit, where there is so much room for its packing. -/
def Statements.edit (capacity : Nat) (statements : Statements) : Edit → Statements
  | .store entry =>
      if entry.statement = [] ∨ (statements.stored entry).packed.length ≤ capacity then
        statements.stored entry
      else
        statements
  | .clear => .none

namespace Represents

variable {program : Program} {statements : Statements}

theorem holds (represents : program.Represents statements) : program.Holds statements.lines :=
  ⟨represents.bytes, statements.ordered_lines⟩

theorem clear (represents : program.Represents statements) : program.clear.Represents .none := by
  have some := represents.within
  rw [represents.bytes, Statements.packed, List.length_append] at some
  have holds : program.clear.Holds Statements.none.lines := by
    rw [Statements.lines_none]
    exact holds_empty program.capacity
  exact holds.represents (Nat.le_trans (Nat.le_add_left _ _) some)

/-- What a statement that is stored leaves: the map with that statement. -/
theorem insert (represents : program.Represents statements) {entry : Entry} {changed : Program}
    (run : program.insert entry.number entry.statement = .ok changed) :
    changed.Represents (statements.stored entry) ∧ changed.capacity = program.capacity := by
  have within := represents.within
  have after := represents.holds.insert entry.numbered entry.oneLine run
  rw [← Statements.lines_stored] at after
  have capacity := capacity_of_insert run
  have sound : program.Sound program.capacity := ⟨⟨_, represents.holds⟩, rfl, within⟩
  refine ⟨after.represents ?_, capacity⟩
  rw [capacity]
  exact (sound.insert entry.numbered entry.oneLine run).within

/-- An edit of the store is that edit of the map. -/
theorem edit (represents : program.Represents statements) (edit : Edit) :
    (program.edit edit).Represents (statements.edit program.capacity edit) ∧
      (program.edit edit).capacity = program.capacity := by
  cases edit with
  | clear => exact ⟨represents.clear, rfl⟩
  | store entry =>
      have result := represents.holds.insert_eq entry
      unfold Program.edit Statements.edit
      dsimp only
      split at result
      next room =>
        have after := represents.insert result
        rw [result, if_pos room]
        exact after
      next noRoom =>
        rw [result, if_neg noRoom]
        exact ⟨represents, rfl⟩

/-- Edits of the store one after the other are those edits of the map. -/
theorem edits (represents : program.Represents statements) (edits : List Edit) :
    (edits.foldl Program.edit program).Represents
        (edits.foldl (Statements.edit program.capacity) statements) ∧
      (edits.foldl Program.edit program).capacity = program.capacity := by
  induction edits generalizing program statements with
  | nil => exact ⟨represents, rfl⟩
  | cons edit edits inductionHypothesis =>
      obtain ⟨after, same⟩ := represents.edit edit
      have others := inductionHypothesis after
      rw [same] at others
      exact others

/-- Storing a statement leaves the lines of all other numbers as they are. -/
theorem get?_insert_of_ne (represents : program.Represents statements) {entry : Entry}
    {changed : Program} (run : program.insert entry.number entry.statement = .ok changed)
    {number : Nat} (different : number ≠ entry.number) :
    changed.get? number = program.get? number := by
  rw [(represents.insert run).1.get?, represents.get?, Statements.stored]
  dsimp only
  rw [Function.update_of_ne different]

end Represents

/-- A store that started empty is a map after any edits, and so is what it does next. -/
theorem represents_edited {capacity : Nat} (room : 2 ≤ capacity) (edits : List Edit) :
    let program := edits.foldl edit (empty capacity)
    let statements := edits.foldl (Statements.edit capacity) .none
    program.Represents statements ∧ program.capacity = capacity ∧
      ∀ entry : Entry,
        program.insert entry.number entry.statement =
          (if entry.statement = [] ∨ (statements.stored entry).packed.length ≤ capacity then
            .ok ⟨(statements.stored entry).packed, capacity⟩
          else
            .error .outOfMemory) ∧
        ∀ changed, program.insert entry.number entry.statement = .ok changed →
          changed.Represents (statements.stored entry) ∧
          ∀ number ≠ entry.number, changed.get? number = program.get? number := by
  have start : (empty capacity).Represents .none := by
    have holds : (empty capacity).Holds Statements.none.lines := by
      rw [Statements.lines_none]
      exact holds_empty capacity
    exact holds.represents room
  obtain ⟨represents, same⟩ := start.edits edits
  refine ⟨represents, same, fun entry => ⟨?_, fun changed run => ⟨?_, fun number different => ?_⟩⟩⟩
  · have result := represents.holds.insert_eq entry
    rw [same] at result
    exact result
  · exact (represents.insert run).1
  · exact represents.get?_insert_of_ne run different

/-- Line 118, whose number is packed as the byte that ends a line, is replaced and deleted. -/
theorem represents_edited_line118 :
    let line (statement : List Code) (oneLine : Code.newline ∉ statement) : Edit :=
      .store ⟨118, statement, by decide, oneLine⟩
    let edits := [line [1, 2] (by decide), .store ⟨256, [3], by decide, by decide⟩,
      line [4, 5, 6] (by decide), line [7] (by decide)]
    2 ≤ 12 ∧ (edits.foldl edit (empty 12)).bytes = [118, 0, 7, 118, 0, 1, 3, 118, 0, 0] ∧
      (edits.foldl edit (empty 12)).Represents
        (edits.foldl (Statements.edit 12) .none) := by
  refine ⟨by decide, by decide, ?_⟩
  exact (represents_edited (by decide) _).1

end Program
end HomeBasic
