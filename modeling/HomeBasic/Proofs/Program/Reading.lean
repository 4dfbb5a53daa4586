import HomeBasic.Proofs.Program.Sound

/-!
# Reading packed programs back

Main statements: a sound store comes back from the block that opens with it
(`decode?_bytes`), whatever block is read as a store, it is a sound one
(`sound_of_decode?`), and which blocks are read as stores (`decode?_eq_some_iff`).
-/

namespace HomeBasic
namespace Program

/-- What is packed in ascending order is measured to its end. -/
theorem packedLength?_packLines {lines : List Line} (ordered : Ordered lines) {steps last : Nat}
    (later : ∀ line ∈ lines, last < line.number) (enough : lines.length < steps)
    (rest : List Code) :
    packedLength? steps last (packLines lines ++ (terminator ++ rest)) =
      some (packLines lines ++ terminator).length := by
  induction lines generalizing steps last with
  | nil =>
      obtain ⟨steps, rfl⟩ : ∃ fewer, steps = fewer + 1 := ⟨steps - 1, by omega⟩
      rfl
  | cons line lines inductionHypothesis =>
      obtain ⟨steps, rfl⟩ : ∃ fewer, steps = fewer + 1 := ⟨steps - 1, by omega⟩
      have numbered := ordered.numbered line (by simp)
      have number := headNumber_packLines ordered (terminator ++ rest)
      have packed : packLines (line :: lines) ++ (terminator ++ rest) =
          UInt8.ofNat line.number :: UInt8.ofNat (line.number / 256) ::
            (line.body ++ Code.newline :: (packLines lines ++ (terminator ++ rest))) := by
        simp [packLines, packLine, Bytes.toLittleEndian]
      rw [packed] at number ⊢
      simp only [headNumber] at number
      have first : ¬line.number = 0 := by omega
      have inRange : ¬(line.number ≤ last ∨ Line.maxNumber < line.number) := by
        have := later line (by simp)
        omega
      have body : (line.body ++ Code.newline :: (packLines lines ++ (terminator ++ rest))).drop
          (line.body.length + 1) = packLines lines ++ (terminator ++ rest) := by
        rw [← List.drop_drop, List.drop_left]
        rfl
      have others := @inductionHypothesis ordered.tail steps line.number
        (fun other member => ordered.lt_of_mem member) (by simpa using enough)
      simp only [packedLength?, number, if_neg first, if_neg inRange,
        Bytes.findIdx?_first (ordered.oneLine line (by simp)), body, others, Option.map_some]
      simp only [packLines_cons, List.length_append, length_packLine, Nat.add_assoc]

/-- A sound store comes back from a block that opens with it. -/
theorem decode?_bytes {capacity : Nat} {program : Program} (sound : program.Sound capacity)
    (rest : List Code) : decode? capacity (program.bytes ++ rest) = some program := by
  obtain ⟨lines, holds⟩ := sound.holds
  have within := sound.within
  have enough := holds.length_lt
  have measured := packedLength?_packLines holds.ordered
    (fun line member => (holds.ordered.numbered line member).1)
    (show lines.length < (program.bytes ++ rest).length + 1 by
      rw [List.length_append]
      omega) rest
  rw [← List.append_assoc, ← holds.bytes] at measured
  rw [decode?, measured]
  dsimp only
  rw [if_pos within, List.take_left, ← sound.capacity_eq]

/-! ## Whatever is read is sound -/

theorem number_eq_zero {low high : Code} (zero : low.toNat + 256 * high.toNat = 0) :
    low = 0 ∧ high = 0 := by
  have lowest : low.toNat = 0 := by omega
  have highest : high.toNat = 0 := by omega
  exact ⟨UInt8.toNat_inj.mp lowest, UInt8.toNat_inj.mp highest⟩

theorem toLittleEndian_number (low high : Code) :
    Bytes.toLittleEndian 2 (low.toNat + 256 * high.toNat) = [low, high] := by
  exact Bytes.toLittleEndian_ofLittleEndian [low, high]

/-- What is taken from behind the end of a line, with the line in front of it. -/
theorem take_line {bytes : List Code} {length : Nat}
    (ended : bytes.findIdx? (· == Code.newline) = some length) (more : Nat) :
    bytes.take (length + (1 + more)) =
      bytes.take length ++ Code.newline :: (bytes.drop (length + 1)).take more := by
  have inside := (List.findIdx?_eq_some_iff_getElem.mp ended).1
  have front : (bytes.take length).length = length := by
    rw [List.length_take]
    omega
  have mark : bytes.drop length = Code.newline :: bytes.drop (length + 1) := by
    have dropped := congrArg (List.drop length) (Bytes.split_at_mark ended).2
    rwa [List.drop_left' front] at dropped
  rw [List.take_add, mark, Nat.add_comm 1 more, List.take_succ_cons]

/-- What is measured as packed lines is the packing of some lines. -/
theorem exists_of_packedLength? {steps last length : Nat} {bytes : List Code}
    (run : packedLength? steps last bytes = some length) :
    ∃ lines, Ordered lines ∧ (∀ line ∈ lines, last < line.number) ∧
      bytes.take length = packLines lines ++ terminator := by
  -- What is behind a line is measured with its number as the last one: so the numbers ascend.
  induction steps generalizing last length bytes with
  | zero => cases run
  | succ steps inductionHypothesis =>
      rcases bytes with _ | ⟨low, _ | ⟨high, bytes⟩⟩
      · cases run
      · cases run
      · simp only [packedLength?] at run
        split at run
        next zero =>
          cases run
          obtain ⟨rfl, rfl⟩ := number_eq_zero zero
          exact ⟨[], ⟨.nil, by simp, by simp⟩, by simp, rfl⟩
        next positive =>
          split at run
          next => cases run
          next inRange =>
            cases ended : bytes.findIdx? (· == Code.newline) with
            | none =>
                rw [ended] at run
                cases run
            | some bodyLength =>
                rw [ended] at run
                dsimp only at run
                rw [Option.map_eq_some_iff] at run
                obtain ⟨others, measured, rfl⟩ := run
                obtain ⟨lines, ordered, later, packed⟩ := inductionHypothesis measured
                have absent := (Bytes.split_at_mark ended).1
                refine ⟨⟨low.toNat + 256 * high.toNat, bytes.take bodyLength⟩ :: lines,
                  ⟨List.pairwise_cons.mpr ⟨later, ordered.ascending⟩,
                    List.forall_mem_cons.mpr ⟨by dsimp only; omega, ordered.numbered⟩,
                    List.forall_mem_cons.mpr ⟨absent, ordered.oneLine⟩⟩,
                  List.forall_mem_cons.mpr ⟨by dsimp only; omega, fun line member => ?_⟩, ?_⟩
                · have := later line member
                  omega
                · have reach : bodyLength + 3 + others = bodyLength + (1 + others) + 2 := by omega
                  rw [reach, List.take_succ_cons, List.take_succ_cons, take_line ended, packed,
                    packLines_cons, packLine, toLittleEndian_number]
                  simp

/-- Whatever block is read as a store, it is a sound one. -/
theorem sound_of_decode? {capacity : Nat} {block : List Code} {program : Program}
    (run : decode? capacity block = some program) : program.Sound capacity := by
  unfold decode? at run
  cases measured : packedLength? (block.length + 1) 0 block with
  | none =>
      rw [measured] at run
      cases run
  | some length =>
      rw [measured] at run
      dsimp only at run
      rw [Option.ite_none_right_eq_some] at run
      obtain ⟨within, same⟩ := run
      cases same
      obtain ⟨lines, ordered, _, packed⟩ := exists_of_packedLength? measured
      exact ⟨⟨lines, packed, ordered⟩, rfl, Nat.le_trans (List.length_take_le _ _) within⟩

/-- A block that is read as a store opens with it. -/
theorem exists_of_decode? {capacity : Nat} {block : List Code} {program : Program}
    (run : decode? capacity block = some program) : ∃ rest, block = program.bytes ++ rest := by
  unfold decode? at run
  split at run
  next length measured =>
    rw [Option.ite_none_right_eq_some] at run
    obtain ⟨-, same⟩ := run
    cases same
    exact ⟨block.drop length, (List.take_append_drop length block).symm⟩
  next => cases run

/-- A block is read as a store exactly if it opens with lines in order that have room, and then
the store is what it opens with. -/
theorem decode?_eq_some_iff {capacity : Nat} {block : List Code} {program : Program} :
    decode? capacity block = some program ↔
      ∃ lines rest, Ordered lines ∧ block = packLines lines ++ terminator ++ rest ∧
        (packLines lines ++ terminator).length ≤ capacity ∧
        program = ⟨packLines lines ++ terminator, capacity⟩ := by
  constructor
  · intro run
    obtain ⟨⟨lines, bytes, ordered⟩, capacity_eq, within⟩ := sound_of_decode? run
    obtain ⟨rest, opens⟩ := exists_of_decode? run
    rw [bytes] at opens within
    refine ⟨lines, rest, ordered, opens, within, ?_⟩
    rw [← bytes, ← capacity_eq]
  · rintro ⟨lines, rest, ordered, rfl, within, rfl⟩
    have sound : Program.Sound capacity ⟨packLines lines ++ terminator, capacity⟩ :=
      ⟨⟨lines, rfl, ordered⟩, rfl, within⟩
    exact decode?_bytes sound rest

end Program
end HomeBasic
