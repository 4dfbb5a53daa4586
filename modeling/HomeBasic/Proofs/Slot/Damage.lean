import HomeBasic.Slot.Directory
import Mathlib.Logic.Function.Basic

/-!
# Damaged files

The register of the checksum loses nothing: a shift moves the low bit to the front, so the
register before can be told from the one after it. Two registers that differ once differ from
then on, whatever bytes they take in, and two bytes leave different registers. So the checksum
tells apart blocks that differ in one byte, and a file shows the change of any one of its bytes,
also of those of the checksum itself.

Main statement: `damage_detected`.
-/

namespace HomeBasic

/-! ## Numbers written in bytes -/

/-- Bytes that can tell two numbers apart are different for them. -/
theorem Bytes.eq_of_toLittleEndian_eq {count first second : Nat} (small : first < span count)
    (little : second < span count)
    (same : toLittleEndian count first = toLittleEndian count second) : first = second := by
  have read := congrArg ofLittleEndian same
  rwa [ofLittleEndian_toLittleEndian, ofLittleEndian_toLittleEndian, Nat.mod_eq_of_lt small,
    Nat.mod_eq_of_lt little] at read

namespace Checksum

/-! ## The register -/

/-- An exclusive or with a register can be taken back. -/
theorem xor_injective (mask : UInt32) : Function.Injective (· ^^^ mask) := by
  intro first second same
  have undone := congrArg (· ^^^ mask) same
  simpa [UInt32.xor_assoc] using undone

theorem toNat_shiftRight_one (register : UInt32) : (register >>> 1).toNat = register.toNat / 2 := by
  rw [UInt32.toNat_shiftRight]
  exact Nat.shiftRight_eq_div_pow _ 1

theorem toNat_and_one (register : UInt32) : (register &&& 1).toNat = register.toNat % 2 := by
  rw [UInt32.toNat_and]
  exact Nat.and_one_is_mod _

/-- The polynomial has its front bit, which no two registers that were shifted can differ in. -/
theorem xor_polynomial_ne (first second : UInt32) :
    (first >>> 1) ^^^ polynomial ≠ second >>> 1 := by
  intro same
  have mask : (first >>> 1) ^^^ (second >>> 1) = polynomial := by
    rw [← same, ← UInt32.xor_assoc, UInt32.xor_self, UInt32.zero_xor]
  have small (register : UInt32) : (register >>> 1).toNat < 2 ^ 31 := by
    have bound := register.toNat_lt
    rw [toNat_shiftRight_one]
    omega
  have bound := Nat.xor_lt_two_pow (small first) (small second)
  rw [← UInt32.toNat_xor, mask] at bound
  exact absurd bound (by decide)

/-- What a shift makes of a register tells which register it was. -/
theorem shift_injective : Function.Injective shift := by
  -- The front bit of the outcome is the low bit that was shifted out.
  have restored {first second : UInt32} (low : first &&& 1 = second &&& 1)
      (high : first >>> 1 = second >>> 1) : first = second := by
    have remainder := congrArg UInt32.toNat low
    have quotient := congrArg UInt32.toNat high
    rw [toNat_and_one, toNat_and_one] at remainder
    rw [toNat_shiftRight_one, toNat_shiftRight_one] at quotient
    apply UInt32.toNat_inj.mp
    omega
  have even {register : UInt32} (low : ¬register &&& 1 = 1) : register &&& 1 = 0 := by
    have odd : (register &&& 1).toNat ≠ 1 := fun one => low (UInt32.toNat_inj.mp one)
    apply UInt32.toNat_inj.mp
    rw [toNat_and_one] at odd ⊢
    rw [UInt32.toNat_zero]
    omega
  intro first second same
  unfold shift at same
  split at same
  next firstOdd =>
    split at same
    next secondOdd => exact restored (firstOdd.trans secondOdd.symm) (xor_injective _ same)
    next => exact absurd same (xor_polynomial_ne _ _)
  next firstEven =>
    split at same
    next => exact absurd same.symm (xor_polynomial_ne _ _)
    next secondEven => exact restored ((even firstEven).trans (even secondEven).symm) same

theorem shiftBy_injective (count : Nat) : Function.Injective (shiftBy count) := by
  induction count with
  | zero => exact fun _ _ same => same
  | succ count inductionHypothesis => exact inductionHypothesis.comp shift_injective

/-- Registers that differ still differ when they took in the same byte. -/
theorem addByte_injective (byte : UInt8) : Function.Injective (addByte · byte) :=
  (shiftBy_injective 8).comp (xor_injective _)

/-- A register that took in another byte is another one. -/
theorem addByte_byte_injective (register : UInt32) : Function.Injective (addByte register) := by
  intro first second same
  have mixed := shiftBy_injective 8 same
  rw [UInt32.xor_comm register, UInt32.xor_comm register] at mixed
  have widened := congrArg UInt32.toNat (xor_injective register mixed)
  exact UInt8.toNat_inj.mp (by simpa using widened)

/-- No bytes bring registers together that differ. -/
theorem foldl_addByte_injective (bytes : List UInt8) :
    Function.Injective (bytes.foldl addByte ·) := by
  induction bytes with
  | nil => exact fun _ _ same => same
  | cons byte rest inductionHypothesis => exact inductionHypothesis.comp (addByte_injective byte)

/-- Blocks that differ in one byte have different checksums. -/
theorem crc32_set_ne {block : List UInt8} {index : Nat} (inside : index < block.length)
    {byte : UInt8} (changes : byte ≠ block[index]) :
    crc32 (block.set index byte) ≠ crc32 block := by
  intro same
  have folded := xor_injective _ same
  have whole : block = block.take index ++ block[index] :: block.drop (index + 1) := by
    rw [← List.drop_eq_getElem_cons inside, List.take_append_drop]
  rw [List.set_eq_take_append_cons_drop, if_pos inside] at folded
  conv at folded => rhs; rw [whole]
  rw [List.foldl_append, List.foldl_append, List.foldl_cons, List.foldl_cons] at folded
  exact changes (addByte_byte_injective _ (foldl_addByte_injective _ folded))

end Checksum

namespace DirectorySlots

/-! ## What a file holds -/

@[simp] theorem length_trailer (block : List Code) : (trailer block).length = 4 :=
  Bytes.length_toLittleEndian 4 _

/-- The bytes of a checksum tell which checksum it is. -/
theorem crc32_eq_of_trailer_eq {first second : List Code} (same : trailer first = trailer second) :
    Checksum.crc32 first = Checksum.crc32 second :=
  UInt32.toNat_inj.mp
    (Bytes.eq_of_toLittleEndian_eq (UInt32.toNat_lt _) (UInt32.toNat_lt _) same)

/-- What stands in front of four bytes is a block if they are its checksum. -/
theorem blockOf?_append (block : List Code) {sum : List Code} (four : sum.length = 4) :
    blockOf? (block ++ sum) = if sum = trailer block then some block else none := by
  have cut : (block ++ sum).length - 4 = block.length := by
    rw [List.length_append, four]
    exact Nat.add_sub_cancel _ _
  have long : 4 ≤ (block ++ sum).length := by
    rw [List.length_append, four]
    exact Nat.le_add_left _ _
  unfold blockOf?
  dsimp only
  rw [cut, List.take_left, List.drop_left]
  by_cases fits : sum = trailer block
  · rw [if_pos ⟨long, fits⟩, if_pos fits]
  · rw [if_neg fun both => fits both.2, if_neg fits]

/-- A file of which one byte has changed holds no block. -/
theorem blockOf?_set {block : List Code} {index : Nat} {byte : Code}
    (inside : index < (contentsOf block).length) (changes : byte ≠ (contentsOf block)[index]) :
    blockOf? ((contentsOf block).set index byte) = none := by
  unfold contentsOf at inside changes ⊢
  rcases Nat.lt_or_ge index block.length with inBlock | behind
  · rw [List.getElem_append_left inBlock] at changes
    rw [List.set_append_left _ _ inBlock, blockOf?_append _ (length_trailer block)]
    exact if_neg fun same =>
      Checksum.crc32_set_ne inBlock changes (crc32_eq_of_trailer_eq same).symm
  · rw [List.getElem_append_right behind] at changes
    rw [List.set_append_right _ _ behind, blockOf?_append]
    · refine if_neg fun same => changes ?_
      have inTrailer : index - block.length < (trailer block).length := by
        rw [List.length_append] at inside
        omega
      have there := List.getElem_set_self (a := byte) (by rwa [List.length_set])
      simpa only [same] using there.symm
    · rw [List.length_set, length_trailer]

/-! ## Files of a directory -/

/-- The files that are not of one slot are found where that one is left out. -/
theorem lookup_filter_of_ne {slot other : Nat} (different : other ≠ slot)
    (files : List (Nat × List Code)) :
    (files.filter (·.1 != slot)).lookup other = files.lookup other := by
  induction files with
  | nil => rfl
  | cons file files inductionHypothesis =>
      obtain ⟨number, contents⟩ := file
      by_cases same : number = slot
      · rw [List.filter_cons_of_neg (by simpa using same), inductionHypothesis, List.lookup_cons,
          same, beq_eq_false_iff_ne.mpr different]
      · rw [List.filter_cons_of_pos (by simpa using same), List.lookup_cons, List.lookup_cons,
          inductionHypothesis]

theorem file?_writeFile_of_ne (slots : DirectorySlots) {slot other : Nat} (different : other ≠ slot)
    (contents : List Code) : (slots.writeFile slot contents).file? other = slots.file? other := by
  rw [writeFile, file?, List.lookup_cons, beq_eq_false_iff_ne.mpr different]
  exact lookup_filter_of_ne different slots.files

/-- What is read from a slot is told by its file. -/
theorem read_of_file? {slots : DirectorySlots} {slot : Nat} (inside : slot < slots.count)
    {contents : List Code} (held : slots.file? slot = some contents) :
    slots.read slot =
      match blockOf? contents with
      | some block => .ok block
      | none => .error (.checksum slot) := by
  cases found : blockOf? contents with
  | some block => simp only [read, if_pos inside, held, found]
  | none => simp only [read, if_pos inside, held, found]

theorem read_writeFile {slots : DirectorySlots} {slot : Nat} (inside : slot < slots.count)
    (contents : List Code) :
    (slots.writeFile slot contents).read slot =
      match blockOf? contents with
      | some block => .ok block
      | none => .error (.checksum slot) :=
  read_of_file? (show slot < (slots.writeFile slot contents).count from inside)
    (file?_writeFile slots slot contents)

/--
A block that is put into a slot of a directory is read back from there, and the files of the other
slots are as they were. Once any one byte of the file is changed, of the block or of the checksum
behind it, the slot is damaged. So is one whose file is too short for a checksum, and one without a
file is empty.
-/
theorem damage_detected (slots : DirectorySlots) {slot : Nat} (inside : slot < slots.count) :
    (∀ block, ∃ changed, slots.persist slot block = .ok changed ∧
      changed.count = slots.count ∧
      changed.file? slot = some (contentsOf block) ∧
      changed.read slot = .ok block ∧
      (∀ other, other ≠ slot →
        changed.file? other = slots.file? other ∧ changed.read other = slots.read other) ∧
      ∀ index byte, (within : index < (contentsOf block).length) →
        byte ≠ (contentsOf block)[index] →
        (changed.writeFile slot ((contentsOf block).set index byte)).read slot =
          .error (.checksum slot)) ∧
    (∀ contents, slots.file? slot = some contents → contents.length < 4 →
      slots.read slot = .error (.checksum slot)) ∧
    (slots.file? slot = none → slots.read slot = .error (.empty slot)) := by
  refine ⟨fun block => ⟨slots.writeFile slot (contentsOf block), if_pos inside, rfl,
    file?_writeFile _ _ _, ?_, fun other different => ?_, fun index byte within changes => ?_⟩,
    fun contents held short => ?_, fun absent => ?_⟩
  · rw [read_writeFile inside, blockOf?_contentsOf]
  · have kept := slots.file?_writeFile_of_ne different (contentsOf block)
    refine ⟨kept, ?_⟩
    rw [read, read, kept]
    rfl
  · have written : slot < (slots.writeFile slot (contentsOf block)).count := inside
    rw [read_writeFile written, blockOf?_set within changes]
  · have damaged : blockOf? contents = none := if_neg fun whole => Nat.not_le.mpr short whole.1
    rw [read_of_file? inside held, damaged]
  · rw [read, if_pos inside, absent]

/-- A block of a single byte: the byte, or one of its checksum, is changed. -/
theorem damage_detected_oneByte :
    let slots : DirectorySlots := ⟨4, [(2, [7, 7, 7]), (1, [5])]⟩
    ∃ changed, slots.persist 1 [0x42] = .ok changed ∧ changed.read 1 = .ok [0x42] ∧
      changed.read 2 = .error (.checksum 2) ∧
      (changed.writeFile 1 ((contentsOf [0x42]).set 0 0xBD)).read 1 = .error (.checksum 1) ∧
      (changed.writeFile 1 ((contentsOf [0x42]).set 4 0)).read 1 = .error (.checksum 1) ∧
      slots.read 1 = .error (.checksum 1) ∧ slots.read 3 = .error (.empty 3) := by
  intro slots
  obtain ⟨put, short, -⟩ := damage_detected slots (show 1 < slots.count by decide)
  obtain ⟨-, shortToo, -⟩ := damage_detected slots (show 2 < slots.count by decide)
  obtain ⟨-, -, absent⟩ := damage_detected slots (show 3 < slots.count by decide)
  obtain ⟨changed, run, -, -, read, others, detects⟩ := put [0x42]
  refine ⟨changed, run, read, ?_, detects 0 0xBD (by decide) (by decide),
    detects 4 0 (by decide) (by decide +kernel), short [5] rfl (by decide), absent rfl⟩
  rw [(others 2 (by decide)).2, shortToo [7, 7, 7] rfl (by decide)]

end DirectorySlots
end HomeBasic
