import HomeBasic.Printing
import HomeBasic.Proofs.Attempt.Repeats
import HomeBasic.Proofs.Program.Walking
import HomeBasic.Proofs.Variables.Decoding

/-!
# Walks through a store end

A walk through a store of lines goes from a line to the next one, and a block is read record by
record. Whatever the bytes are, every turn leads on by a byte at least, so all of these loops end.

Main statements: finding a line (`repeats_find`), listing the lines (`repeats_listings`) and
reading the two stores of a block (`repeats_packedLength?`, `repeats_readRecords?`) are to repeat
their turns.
-/

namespace HomeBasic

namespace Program

variable {program : Program} {offset : Nat}

/-- The line at an offset takes bytes of the store, and the next one is behind them. -/
theorem nextOffset_eq (numbered : program.numberAt offset ≠ 0) :
    program.nextOffset offset = offset + headLength (program.bytes.drop offset) ∧
      program.bytes.length - program.nextOffset offset < program.bytes.length - offset := by
  have inside : offset < program.bytes.length := by
    refine Nat.lt_of_not_le fun outside => numbered ?_
    rw [numberAt, List.drop_eq_nil_of_le outside]
    rfl
  have next : program.nextOffset offset = offset + headLength (program.bytes.drop offset) := by
    rw [nextOffset, headLength, List.drop_drop, List.length_drop]
    cases (program.bytes.drop (offset + 2)).findIdx? (· == Code.newline) with
    | some length => exact Nat.add_assoc _ _ _
    | none => exact (Nat.add_sub_cancel' (Nat.le_of_lt inside)).symm
  have some := headLength_pos numbered
  exact ⟨next, by omega⟩

/-! ## Finding a line -/

/-- A walk stops at the end or at a line numbered high enough, and goes on to the next line
otherwise. -/
def findTurn (program : Program) (number : Nat) :
    Nat × Option Nat → (Nat × Option Nat) ⊕ (Nat × Option Nat)
  | (offset, previous) =>
      if program.numberAt offset = 0 ∨ number ≤ program.numberAt offset then
        .inr (offset, previous)
      else
        .inl (program.nextOffset offset, some offset)

theorem repeats_find (program : Program) (number : Nat) :
    Repeats (program.findTurn number) (0, none) (program.find number) := by
  refine Repeats.of_measure
    (fun steps place => findFrom number steps (program.bytes.drop place.1) place.1 place.2)
    (fun place => program.bytes.length - place.1) ?_ ?_ ?_ (0, none) (Nat.le_refl _)
  · rintro ⟨offset, previous⟩ none
    refine if_pos (.inl ?_)
    rw [numberAt, List.drop_eq_nil_of_le (Nat.le_of_sub_eq_zero none)]
    rfl
  · rintro steps ⟨offset, previous⟩
    dsimp only
    rw [findTurn, findFrom]
    change (if program.numberAt offset = 0 ∨ number ≤ program.numberAt offset then _ else _) = _
    by_cases stops : program.numberAt offset = 0 ∨ number ≤ program.numberAt offset
    · rw [if_pos stops, if_pos stops]
      rfl
    · rw [if_neg stops, if_neg stops, (nextOffset_eq (not_or.mp stops).1).1]
      dsimp only [Sum.elim_inl]
      rw [List.drop_drop]
  · rintro ⟨offset, previous⟩ next goesOn
    rw [findTurn] at goesOn
    split at goesOn
    next => cases goesOn
    next walks =>
      cases goesOn
      exact (nextOffset_eq (not_or.mp walks).1).2

/-! ## Listing lines -/

/-- The line at an offset is listed, unless the store ends there. -/
def listTurn {H : Type} [Console H] (program : Program) (word : WordSize) (offset : Nat) :
    Attempt H (Nat ⊕ Unit) :=
  match program.lineAt? offset with
  | none => return .inr ()
  | some line => do
      Printing.codes (line.listing word)
      Printing.newline
      return .inl (program.nextOffset offset)

theorem numberAt_of_lineAt? {line : Line} (found : program.lineAt? offset = some line) :
    program.numberAt offset ≠ 0 := by
  intro ends
  have none : program.lineAt? offset = none := if_pos ends
  exact nomatch none.symm.trans found

theorem repeats_listings {H : Type} [Console H] (program : Program) (word : WordSize)
    (offset : Nat) (console : H) :
    Repeats (Attempt.turn (program.listTurn word)) (offset, console)
      (Printing.listings ((linesFrom program.bytes.length (program.bytes.drop offset)).map
        (·.listing word)) console) := by
  refine Attempt.repeats_of_measure
    (fun steps offset =>
      Printing.listings ((linesFrom steps (program.bytes.drop offset)).map (·.listing word)))
    (fun offset _ => program.bytes.length - offset) ?_ ?_ ?_ offset console (Nat.sub_le _ _)
  · intro offset console none
    have ended : program.lineAt? offset = .none := by
      rw [lineAt?, List.drop_eq_nil_of_le (Nat.le_of_sub_eq_zero none)]
      rfl
    rw [Attempt.turn, listTurn, ended]
    rfl
  · intro steps offset console
    rw [linesFrom, listTurn, lineAt?]
    cases found : headLine? (program.bytes.drop offset) with
    | none => rfl
    | some line =>
        have next := (nextOffset_eq (numberAt_of_lineAt? found)).1
        simp only [List.map_cons, Printing.listings, bind_assoc, pure_bind, Attempt.after, next,
          List.drop_drop]
  · intro offset console next reached goesOn
    rw [listTurn] at goesOn
    cases found : program.lineAt? offset with
    | none =>
        rw [found] at goesOn
        cases goesOn
    | some line =>
        rw [found] at goesOn
        obtain ⟨_, listed, -, goesOn⟩ := Attempt.exists_of_bind_eq_ok goesOn
        obtain ⟨_, ended, -, goesOn⟩ := Attempt.exists_of_bind_eq_ok goesOn
        cases goesOn
        exact (nextOffset_eq (numberAt_of_lineAt? found)).2

/-! ## Reading a block -/

/-- A line of a block is checked and passed over, given the number of the one before it and how
much was passed over. -/
def packedTurn : Nat × Nat × List Code → (Nat × Nat × List Code) ⊕ Option Nat
  | (last, passed, low :: high :: rest) =>
      let number := low.toNat + 256 * high.toNat
      if number = 0 then
        .inr (some (passed + 2))
      else if number ≤ last ∨ Line.maxNumber < number then
        .inr none
      else
        match rest.findIdx? (· == Code.newline) with
        | none => .inr none
        | some length => .inl (number, passed + (length + 3), rest.drop (length + 1))
  | _ => .inr none

theorem packedLength?_succ (steps last passed : Nat) (bytes : List Code) :
    (packedLength? (steps + 1) last bytes).map (passed + ·) =
      Sum.elim (fun place => (packedLength? steps place.1 place.2.2).map (place.2.1 + ·)) id
        (packedTurn (last, passed, bytes)) := by
  rcases bytes with _ | ⟨low, _ | ⟨high, rest⟩⟩
  · rfl
  · rfl
  · rw [packedLength?, packedTurn]
    split
    · rfl
    · split
      · rfl
      · cases rest.findIdx? (· == Code.newline) with
        | none => rfl
        | some length =>
            simp only [Sum.elim_inl, Option.map_map, Function.comp_def, Nat.add_assoc]

theorem repeats_packedLength? (block : List Code) :
    Repeats packedTurn (0, 0, block) (packedLength? (block.length + 1) 0 block) := by
  have whole : packedLength? (block.length + 1) 0 block =
      (packedLength? (block.length + 1) 0 block).map (0 + ·) := by
    simp
  rw [whole]
  refine Repeats.of_measure
    (fun steps place => (packedLength? steps place.1 place.2.2).map (place.2.1 + ·))
    (fun place => place.2.2.length + 1) (fun _ => nofun)
    (fun steps place => packedLength?_succ steps place.1 place.2.1 place.2.2) ?_ (0, 0, block)
    (Nat.le_refl _)
  rintro ⟨last, passed, _ | ⟨low, _ | ⟨high, rest⟩⟩⟩ next goesOn
  · cases goesOn
  · cases goesOn
  · rw [packedTurn] at goesOn
    split at goesOn
    · cases goesOn
    · split at goesOn
      · cases goesOn
      · split at goesOn
        · cases goesOn
        · cases goesOn
          simp only [List.length_drop, List.length_cons]
          omega

end Program

namespace Variables

/-- A record of a block is put onto a store, unless the store ends there. -/
def recordTurn : Variables × List Code → (Variables × List Code) ⊕ Option Variables
  | (_, []) => .inr none
  | (store, header :: bytes) =>
      if header = terminator then
        .inr (some store)
      else
        match readRecord? store.size header bytes with
        | none => .inr none
        | some (record, rest) =>
            match append record.name record.contents store with
            | (.ok (), longer) => .inl (longer, rest)
            | (.error _, _) => .inr none

theorem length_of_readRecord? {size : WordSize} {header : Code} {bytes rest : List Code}
    {record : Record} (run : readRecord? size header bytes = some (record, rest)) :
    rest.length < bytes.length + 1 := by
  have packed := congrArg List.length (pack_of_readRecord? run)
  rw [List.length_append, List.length_cons, Record.pack, List.cons_append, List.length_cons]
    at packed
  omega

theorem repeats_readRecords? (store : Variables) (bytes : List Code) :
    Repeats recordTurn (store, bytes) (readRecords? (bytes.length + 1) store bytes) := by
  refine Repeats.of_measure (fun steps place => readRecords? steps place.1 place.2)
    (fun place => place.2.length + 1) (fun _ => nofun) ?_ ?_ (store, bytes) (Nat.le_refl _)
  · rintro steps ⟨store, _ | ⟨header, bytes⟩⟩
    · rfl
    · dsimp only
      rw [readRecords?, recordTurn]
      split
      · rfl
      · cases readRecord? store.size header bytes with
        | none => rfl
        | some read =>
            dsimp only
            rcases append read.1.name read.1.contents store with ⟨fault | _, longer⟩ <;> rfl
  · rintro ⟨store, _ | ⟨header, bytes⟩⟩ next goesOn
    · cases goesOn
    · rw [recordTurn] at goesOn
      split at goesOn
      · cases goesOn
      · rcases read : readRecord? store.size header bytes with _ | ⟨record, rest⟩ <;>
          rw [read] at goesOn
        · cases goesOn
        · dsimp only at goesOn
          rcases appended : append record.name record.contents store with ⟨fault | _, longer⟩ <;>
            rw [appended] at goesOn <;> cases goesOn
          exact Nat.succ_lt_succ (length_of_readRecord? read)

end Variables
end HomeBasic
