import HomeBasic.Program

/-!
# Sound program stores

A sound store is the packing of some lines in ascending order, each with a number that
a stored line may have and no end of line inside it (`Program.Holds`). Walking the store
line by line finds the places in between its lines (`find_fst`).

Main statements: storing a line puts it in its place among the others, or takes it away
(`Holds.insert`).
-/

namespace HomeBasic
namespace Program

/-- Lines as they are packed one after the other, without the end of the store. -/
def packLines (lines : List Line) : List Code :=
  lines.flatMap fun line => packLine line.number line.body

/-- Lines that a store can hold, in the order in which it holds them. -/
structure Ordered (lines : List Line) : Prop where
  ascending : lines.Pairwise (·.number < ·.number)
  numbered : ∀ line ∈ lines, 0 < line.number ∧ line.number ≤ Line.maxNumber
  oneLine : ∀ line ∈ lines, Code.newline ∉ line.body

/-- A store holds lines. -/
structure Holds (program : Program) (lines : List Line) : Prop where
  bytes : program.bytes = packLines lines ++ terminator
  ordered : Ordered lines

/-- The lines below a number. -/
def below (number : Nat) (lines : List Line) : List Line :=
  lines.filter (·.number < number)

/-- The lines above a number. -/
def above (number : Nat) (lines : List Line) : List Line :=
  lines.filter (number < ·.number)

/-- The lines of a number: one, or none. -/
def numberedBy (number : Nat) (lines : List Line) : List Line :=
  lines.filter (·.number == number)

namespace Ordered

variable {line : Line} {lines : List Line}

theorem tail (ordered : Ordered (line :: lines)) : Ordered lines where
  ascending := (List.pairwise_cons.mp ordered.ascending).2
  numbered other member := ordered.numbered other (List.mem_cons_of_mem _ member)
  oneLine other member := ordered.oneLine other (List.mem_cons_of_mem _ member)

theorem filter (ordered : Ordered lines) (keep : Line → Bool) : Ordered (lines.filter keep) where
  ascending := ordered.ascending.filter keep
  numbered other member := ordered.numbered other (List.mem_filter.mp member).1
  oneLine other member := ordered.oneLine other (List.mem_filter.mp member).1

theorem lt_of_mem (ordered : Ordered (line :: lines)) {other : Line} (member : other ∈ lines) :
    line.number < other.number :=
  (List.pairwise_cons.mp ordered.ascending).1 other member

theorem below_eq_nil (ordered : Ordered (line :: lines)) {number : Nat}
    (first : number ≤ line.number) : below number (line :: lines) = [] := by
  refine List.filter_eq_nil_iff.mpr fun other member => ?_
  rcases List.mem_cons.mp member with rfl | later
  · simpa using first
  · have := ordered.lt_of_mem later
    simp only [decide_eq_true_eq]
    omega

theorem above_eq_self {number : Nat} (higher : ∀ line ∈ lines, number < line.number) :
    above number lines = lines :=
  List.filter_eq_self.mpr fun line member => by simpa using higher line member

theorem numberedBy_eq_nil {number : Nat} (higher : ∀ line ∈ lines, number < line.number) :
    numberedBy number lines = [] :=
  List.filter_eq_nil_iff.mpr fun line member => by
    have := higher line member
    simp only [beq_iff_eq]
    omega

/-- The lines below a number, of it and above it are all the lines. -/
theorem below_append (ordered : Ordered lines) (number : Nat) :
    below number lines ++ numberedBy number lines ++ above number lines = lines := by
  induction lines with
  | nil => rfl
  | cons line lines inductionHypothesis =>
      have others := inductionHypothesis ordered.tail
      rcases Nat.lt_trichotomy line.number number with lower | same | higher
      · have notSame : (line.number == number) = false := by
          simpa using Nat.ne_of_lt lower
        simp only [below, numberedBy, above, List.filter_cons, lower, notSame,
          Nat.lt_asymm lower, decide_true, decide_false, if_true, List.cons_append,
          Bool.false_eq_true, if_false] at others ⊢
        rw [others]
      · subst same
        have higher : ∀ other ∈ lines, line.number < other.number :=
          fun other member => ordered.lt_of_mem member
        have here : numberedBy line.number (line :: lines) =
            line :: numberedBy line.number lines :=
          List.filter_cons_of_pos (by simp)
        have after : above line.number (line :: lines) = above line.number lines :=
          List.filter_cons_of_neg (by simp)
        rw [ordered.below_eq_nil (Nat.le_refl _), here, after, numberedBy_eq_nil higher,
          above_eq_self higher]
        rfl
      · have higher : ∀ other ∈ line :: lines, number < other.number := by
          refine List.forall_mem_cons.mpr ⟨higher, fun other member => ?_⟩
          exact Nat.lt_trans higher (ordered.lt_of_mem member)
        rw [ordered.below_eq_nil (Nat.le_of_lt (higher line (by simp))),
          numberedBy_eq_nil higher, above_eq_self higher]
        rfl

end Ordered

/-! ## Walking a packed store -/

theorem packLines_append (first second : List Line) :
    packLines (first ++ second) = packLines first ++ packLines second :=
  List.flatMap_append

theorem packLines_cons (line : Line) (lines : List Line) :
    packLines (line :: lines) = packLine line.number line.body ++ packLines lines :=
  rfl

theorem length_packLine (number : Nat) (statement : List Code) :
    (packLine number statement).length = statement.length + 3 := by
  simp [packLine]
  omega

theorem length_le_packLines (lines : List Line) :
    lines.length ≤ (packLines lines).length := by
  induction lines with
  | nil => exact Nat.le_refl 0
  | cons line lines inductionHypothesis =>
      rw [packLines_cons, List.length_append, length_packLine, List.length_cons]
      omega

section
variable {line : Line} {lines : List Line}

theorem headNumber_packLines (ordered : Ordered (line :: lines)) (rest : List Code) :
    headNumber (packLines (line :: lines) ++ rest) = line.number := by
  have bound := (ordered.numbered line (by simp)).2
  rw [packLines_cons, List.append_assoc]
  exact headNumber_packLine (by simp only [Line.maxNumber] at bound; omega) _ _

theorem headLength_packLines (ordered : Ordered (line :: lines)) (rest : List Code) :
    headLength (packLines (line :: lines) ++ rest) =
      (packLine line.number line.body).length := by
  rw [packLines_cons, List.append_assoc, length_packLine]
  exact headLength_packLine (ordered.oneLine line (by simp)) _ _

/-- A walk stops at a line numbered high enough, and goes on behind any other. -/
theorem findFrom_cons (ordered : Ordered (line :: lines)) (number steps offset : Nat)
    (previous : Option Nat) (rest : List Code) :
    findFrom number (steps + 1) (packLines (line :: lines) ++ rest) offset previous =
      if number ≤ line.number then (offset, previous)
      else findFrom number steps (packLines lines ++ rest)
        (offset + (packLine line.number line.body).length) (some offset) := by
  have positive := (ordered.numbered line (by simp)).1
  rw [findFrom, headNumber_packLines ordered]
  by_cases stops : number ≤ line.number
  · rw [if_pos stops, if_pos (.inr stops)]
  · rw [if_neg stops, if_neg (by omega), headLength_packLines ordered, packLines_cons,
      List.append_assoc]
    dsimp only
    rw [List.drop_left]

theorem below_cons_of_lt {number : Nat} (lower : line.number < number) :
    below number (line :: lines) = line :: below number lines :=
  List.filter_cons_of_pos (by simpa using lower)

/-- Walking comes to where the lines below a number end. -/
theorem findFrom_packLines (ordered : Ordered lines) {steps : Nat}
    (enough : lines.length < steps) (number offset : Nat) (previous : Option Nat) :
    (findFrom number steps (packLines lines ++ terminator) offset previous).1 =
      offset + (packLines (below number lines)).length := by
  induction lines generalizing steps offset previous with
  | nil =>
      obtain ⟨steps, rfl⟩ : ∃ fewer, steps = fewer + 1 := ⟨steps - 1, by omega⟩
      rfl
  | cons line lines inductionHypothesis =>
      obtain ⟨steps, rfl⟩ : ∃ fewer, steps = fewer + 1 := ⟨steps - 1, by omega⟩
      rw [findFrom_cons ordered]
      split
      next stops =>
        rw [ordered.below_eq_nil stops]
        rfl
      next goesOn =>
        rw [below_cons_of_lt (Nat.lt_of_not_le goesOn), packLines_cons,
          inductionHypothesis ordered.tail (by simpa using enough), List.length_append,
          Nat.add_assoc]

end

namespace Holds

variable {program : Program} {lines : List Line}

theorem length_lt (holds : program.Holds lines) : lines.length < program.bytes.length := by
  have := length_le_packLines lines
  rw [holds.bytes, List.length_append]
  simp only [terminator, List.length_cons, List.length_nil]
  omega

theorem find_fst (holds : program.Holds lines) (number : Nat) :
    (program.find number).1 = (packLines (below number lines)).length := by
  have enough := holds.length_lt
  rw [find, holds.bytes] at *
  rw [findFrom_packLines holds.ordered enough, Nat.zero_add]

/-- The store is the lines below a number, of it and above it. -/
theorem bytes_eq (holds : program.Holds lines) (number : Nat) :
    program.bytes = packLines (below number lines) ++
      (packLines (numberedBy number lines) ++ (packLines (above number lines) ++ terminator)) := by
  rw [holds.bytes, ← List.append_assoc, ← List.append_assoc, ← packLines_append,
    ← packLines_append, holds.ordered.below_append number]

theorem drop_find (holds : program.Holds lines) (number : Nat) :
    program.bytes.drop (program.find number).1 =
      packLines (numberedBy number lines) ++ (packLines (above number lines) ++ terminator) := by
  rw [holds.find_fst, holds.bytes_eq number, List.drop_left]

/-- A number has no line where the lines above it follow those below it. -/
theorem headNumber_above_ne (ordered : Ordered lines) {number : Nat} (numbered : 0 < number) :
    headNumber (packLines (above number lines) ++ terminator) ≠ number := by
  have ordered := ordered.filter fun line => decide (number < line.number)
  unfold above
  cases others : lines.filter (number < ·.number) with
  | nil => exact Nat.ne_of_lt numbered
  | cons line rest =>
      rw [others] at ordered
      have member : line ∈ lines.filter (number < ·.number) := by simp [others]
      have higher := (List.mem_filter.mp member).2
      rw [headNumber_packLines ordered]
      simp only [decide_eq_true_eq] at higher
      omega

/-- The line of a number takes the bytes of its packing. -/
theorem lengthOf_eq (holds : program.Holds lines) {number : Nat} (numbered : 0 < number) :
    program.lengthOf number = (packLines (numberedBy number lines)).length := by
  have place := holds.drop_find number
  have same : ∀ line ∈ numberedBy number lines, line.number = number :=
    fun line member => by simpa using (List.mem_filter.mp member).2
  have ordered : Ordered (numberedBy number lines) := holds.ordered.filter _
  simp only [lengthOf, numberAt, nextOffset, ← List.drop_drop, place]
  cases here : numberedBy number lines with
  | nil => exact if_neg (headNumber_above_ne holds.ordered numbered)
  | cons line others =>
      rw [here] at same ordered
      obtain rfl : others = [] := by
        cases others with
        | nil => rfl
        | cons other others =>
            have := ordered.lt_of_mem (show other ∈ other :: others by simp)
            have := same line (by simp)
            have := same other (by simp)
            omega
      rw [headNumber_packLines ordered, if_pos (same line (by simp))]
      have body : (packLines [line] ++ (packLines (above number lines) ++ terminator)).drop 2 =
          line.body ++ Code.newline :: (packLines (above number lines) ++ terminator) := by
        simp [packLines, packLine, Bytes.toLittleEndian]
      rw [body, Bytes.findIdx?_first (ordered.oneLine line (by simp))]
      simp only [packLines, List.flatMap_cons, List.flatMap_nil, List.append_nil, length_packLine]
      omega

end Holds

/-- The lines with a statement stored under a number, or with none if the statement is empty. -/
def inserted (number : Nat) (statement : List Code) (lines : List Line) : List Line :=
  below number lines ++ (if statement.isEmpty then [] else [⟨number, statement⟩]) ++
    above number lines

theorem Ordered.inserted {lines : List Line} (ordered : Ordered lines) {number : Nat}
    {statement : List Code} (numbered : 0 < number ∧ number ≤ Line.maxNumber)
    (oneLine : Code.newline ∉ statement) : Ordered (inserted number statement lines) := by
  have lower : ∀ line ∈ below number lines, line.number < number :=
    fun line member => by simpa using (List.mem_filter.mp member).2
  have higher : ∀ line ∈ above number lines, number < line.number :=
    fun line member => by simpa using (List.mem_filter.mp member).2
  have before : Ordered (below number lines) := ordered.filter _
  have after : Ordered (above number lines) := ordered.filter _
  unfold Program.inserted
  cases statement with
  | nil =>
      simp only [List.isEmpty_nil, if_true, List.append_nil]
      refine ⟨List.pairwise_append.mpr ⟨before.ascending, after.ascending, ?_⟩, ?_, ?_⟩
      · intro line first other second
        exact Nat.lt_trans (lower line first) (higher other second)
      · exact List.forall_mem_append.mpr ⟨before.numbered, after.numbered⟩
      · exact List.forall_mem_append.mpr ⟨before.oneLine, after.oneLine⟩
  | cons code rest =>
      simp only [List.isEmpty_cons, Bool.false_eq_true, if_false, List.append_assoc,
        List.singleton_append]
      refine ⟨List.pairwise_append.mpr ⟨before.ascending,
        List.pairwise_cons.mpr ⟨higher, after.ascending⟩, ?_⟩, ?_, ?_⟩
      · intro line first
        refine List.forall_mem_cons.mpr ⟨lower line first, fun other second => ?_⟩
        exact Nat.lt_trans (lower line first) (higher other second)
      · exact List.forall_mem_append.mpr ⟨before.numbered,
          List.forall_mem_cons.mpr ⟨numbered, after.numbered⟩⟩
      · exact List.forall_mem_append.mpr ⟨before.oneLine,
          List.forall_mem_cons.mpr ⟨oneLine, after.oneLine⟩⟩

namespace Holds

variable {program : Program} {lines : List Line}

theorem take_find (holds : program.Holds lines) (number : Nat) :
    program.bytes.take (program.find number).1 = packLines (below number lines) := by
  rw [holds.find_fst, holds.bytes_eq number, List.take_left]

theorem drop_line (holds : program.Holds lines) {number : Nat} (numbered : 0 < number) :
    program.bytes.drop ((program.find number).1 + program.lengthOf number) =
      packLines (above number lines) ++ terminator := by
  rw [← List.drop_drop, holds.drop_find, holds.lengthOf_eq numbered, List.drop_left]

/-- Storing a statement puts its line in place of any of the same number. -/
theorem insert (holds : program.Holds lines) {number : Nat} {statement : List Code}
    {changed : Program} (numbered : 0 < number ∧ number ≤ Line.maxNumber)
    (oneLine : Code.newline ∉ statement) (run : program.insert number statement = .ok changed) :
    changed.Holds (inserted number statement lines) := by
  refine ⟨?_, holds.ordered.inserted numbered oneLine⟩
  simp only [Program.insert, holds.take_find, holds.drop_line numbered.1] at run
  unfold inserted
  cases statement with
  | nil =>
      cases run
      simp only [List.isEmpty_nil, if_true, List.append_nil, packLines_append,
        List.append_assoc]
  | cons code rest =>
      simp only [List.isEmpty_cons, Bool.false_eq_true, if_false] at run ⊢
      split at run
      next => cases run
      next =>
        cases run
        simp [packLines]

end Holds

/-- A store that holds lines, and is within its room. -/
structure Sound (capacity : Nat) (program : Program) : Prop where
  holds : ∃ lines, program.Holds lines
  capacity_eq : program.capacity = capacity
  within : program.bytes.length ≤ capacity

theorem holds_empty (capacity : Nat) : (empty capacity).Holds [] :=
  ⟨rfl, .nil, by simp, by simp⟩

theorem sound_empty {capacity : Nat} (room : 2 ≤ capacity) : (empty capacity).Sound capacity :=
  ⟨⟨[], holds_empty capacity⟩, rfl, room⟩

namespace Sound

variable {capacity : Nat} {program : Program}

theorem clear (sound : program.Sound capacity) : program.clear.Sound capacity := by
  obtain ⟨lines, holds⟩ := sound.holds
  have some := holds.bytes ▸ sound.within
  rw [Program.clear, sound.capacity_eq]
  refine sound_empty (Nat.le_trans ?_ some)
  rw [List.length_append]
  exact Nat.le_add_left _ _

theorem insert (sound : program.Sound capacity) {number : Nat} {statement : List Code}
    {changed : Program} (numbered : 0 < number ∧ number ≤ Line.maxNumber)
    (oneLine : Code.newline ∉ statement) (run : program.insert number statement = .ok changed) :
    changed.Sound capacity := by
  obtain ⟨lines, holds⟩ := sound.holds
  have within := sound.within
  have after := holds.insert numbered oneLine run
  refine ⟨⟨_, after⟩, (capacity_of_insert run).trans sound.capacity_eq, ?_⟩
  have whole := congrArg List.length (holds.bytes_eq number)
  have changes := congrArg List.length after.bytes
  simp only [inserted, packLines_append, List.length_append] at whole changes
  cases statement with
  | nil =>
      simp only [List.isEmpty_nil, if_true, packLines, List.flatMap_nil, List.length_nil]
        at whole changes
      omega
  | cons code rest =>
      simp only [Program.insert, List.isEmpty_cons, Bool.false_eq_true, if_false] at run changes
      split at run
      next => cases run
      next room =>
        rw [holds.lengthOf_eq numbered.1, sound.capacity_eq] at room
        simp only [packLines, List.flatMap_cons, List.flatMap_nil, List.append_nil,
          length_packLine] at whole changes room
        omega

end Sound

end Program
end HomeBasic
