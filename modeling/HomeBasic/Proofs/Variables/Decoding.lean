import HomeBasic.Proofs.Variables.Reading

/-!
# What packed variables are read from

Whatever bytes are read as a store, they open with its packing. Of the bytes behind that packing
nothing is read, and bytes that end before it does are no store.

Main statements: the bytes that a record is read from are its packing (`pack_of_readRecord?`), and
those that a store is read from are the packing of the store (`exists_of_decode?`).
-/

namespace HomeBasic
namespace Variables

variable {size : WordSize} {capacity : Nat}

/-! ## One record -/

theorem append_of_split? {count : Nat} {bytes first rest : List Code}
    (run : split? count bytes = some (first, rest)) : bytes = first ++ rest := by
  unfold split? at run
  split at run
  next =>
    cases run
    exact (List.take_append_drop count bytes).symm
  next => cases run

theorem toBytes_of_readWord? {bytes rest : List Code} {value : Int}
    (run : readWord? size bytes = some (value, rest)) : bytes = size.toBytes value ++ rest := by
  obtain ⟨⟨word, after⟩, read, same⟩ := Option.map_eq_some_iff.mp run
  cases same
  rw [WordSize.toBytes_ofBytes (length_of_split? read)]
  exact append_of_split? read

theorem toBytes_of_readWords? {count : Nat} {bytes rest : List Code} {values : List Int}
    (run : readWords? size count bytes = some (values, rest)) :
    bytes = values.flatMap size.toBytes ++ rest := by
  induction count generalizing bytes values rest with
  | zero =>
      cases run
      rfl
  | succ count inductionHypothesis =>
      simp only [readWords?, bind, Option.bind_eq_some_iff, Prod.exists] at run
      obtain ⟨value, middle, first, others, last, second, same⟩ := run
      cases same
      rw [toBytes_of_readWord? first, inductionHypothesis second, List.flatMap_cons,
        List.append_assoc]

/-- The bytes that contents are read from are their packing, and their kind is the one that was
asked for. -/
theorem payload_of_readPayload? {tag : UInt8} (kind : tag < 4) {bytes rest : List Code}
    {contents : Variable} (run : readPayload? size tag bytes = some (contents, rest)) :
    contents.tag = tag ∧ bytes = contents.payload size ++ rest := by
  unfold readPayload? at run
  split at run
  next number =>
    simp only [bind, Option.bind_eq_some_iff, Prod.exists] at run
    obtain ⟨value, middle, first, same⟩ := run
    cases same
    exact ⟨number.symm, toBytes_of_readWord? first⟩
  next =>
    split at run
    next loop =>
      simp only [bind, Option.bind_eq_some_iff, Prod.exists] at run
      obtain ⟨value, middle, first, limit, later, second, resume, last, third, same⟩ := run
      cases same
      have line := Bytes.toLittleEndian_ofLittleEndian resume
      rw [length_of_split? third] at line
      refine ⟨loop.symm, ?_⟩
      rw [toBytes_of_readWord? first, toBytes_of_readWord? second, append_of_split? third,
        Variable.payload, line]
      simp only [List.append_assoc]
    next =>
      split at run
      next text =>
        simp only [bind, Option.bind_eq_some_iff] at run
        obtain ⟨length, found, same⟩ := run
        cases same
        refine ⟨text.symm, ?_⟩
        rw [Variable.payload, List.append_assoc]
        exact (Bytes.split_at_mark found).2
      next =>
        split at run
        next => cases run
        next notNumber notLoop notText _ maxIndex others =>
          simp only [bind, Option.bind_eq_some_iff, Prod.exists] at run
          obtain ⟨values, last, read, same⟩ := run
          cases same
          have array : tag = 3 := by
            have bound := UInt8.lt_iff_toNat_lt.mp kind
            rw [← UInt8.toNat_inj] at notNumber notLoop notText ⊢
            simp only [UInt8.toNat_ofNat] at *
            omega
          refine ⟨array.symm, ?_⟩
          rw [Variable.payload, (fits_of_readWords? read).1, Nat.add_sub_cancel, UInt8.ofNat_toNat,
            toBytes_of_readWords? read]
          rfl

/-- A header is put together again from its parts. -/
theorem header_of_parts (header : Code) :
    (header >>> 6) <<< 6 ||| UInt8.ofNat (header &&& 0x3F).toNat = header ∧ header >>> 6 < 4 := by
  have every : ∀ value : Fin 256,
      (UInt8.ofNat value.val >>> 6) <<< 6 |||
          UInt8.ofNat (UInt8.ofNat value.val &&& 0x3F).toNat = UInt8.ofNat value.val ∧
        UInt8.ofNat value.val >>> 6 < 4 := by
    decide +kernel
  have same := every ⟨header.toNat, header.toNat_lt⟩
  rwa [UInt8.ofNat_toNat] at same

/-- The bytes that a record is read from are its packing. -/
theorem pack_of_readRecord? {header : Code} {bytes rest : List Code} {record : Record}
    (run : readRecord? size header bytes = some (record, rest)) :
    header :: bytes = record.pack size ++ rest := by
  simp only [readRecord?, bind, Option.bind_eq_some_iff, Prod.exists] at run
  obtain ⟨name, middle, named, contents, last, read, same⟩ := run
  cases same
  obtain ⟨whole, kind⟩ := header_of_parts header
  obtain ⟨tag, payload⟩ := payload_of_readPayload? kind read
  have first : (⟨name, contents⟩ : Record).header = header := by
    rw [Record.header, tag, length_of_split? named]
    exact whole
  rw [Record.pack, first, append_of_split? named, payload]
  simp only [List.cons_append, List.append_assoc]

/-! ## All records -/

theorem bytesOf_cons (size : WordSize) (record : Record) (records : List Record) :
    bytesOf size (record :: records) = record.byteSize size + bytesOf size records := rfl

/-- The bytes that records are read from are theirs, with the end of the store behind them, and
the last of them had room. -/
theorem exists_of_readRecords? {steps : Nat} {store read : Variables} {bytes : List Code}
    (run : readRecords? steps store bytes = some read) :
    ∃ records rest,
      bytes = records.flatMap (·.pack store.size) ++ terminator :: rest ∧
      (∀ record ∈ records, record.Sound store.size) ∧
      (records ≠ [] → store.used + bytesOf store.size records ≤ store.capacity) ∧
      read = { store with
        used := store.used + bytesOf store.size records
        records := store.records ++ records } := by
  induction steps generalizing store bytes with
  | zero => cases run
  | succ steps inductionHypothesis =>
      cases bytes with
      | nil => cases run
      | cons header bytes =>
          rw [readRecords?] at run
          split at run
          next last =>
            cases run
            subst last
            exact ⟨[], bytes, rfl, by simp, by simp, by simp [bytesOf]⟩
          next more =>
            cases first : readRecord? store.size header bytes with
            | none =>
                rw [first] at run
                cases run
            | some result =>
                obtain ⟨record, rest⟩ := result
                rw [first] at run
                dsimp only at run
                rw [append_apply] at run
                by_cases full : store.capacity <
                    store.used + (⟨record.name, record.contents⟩ : Record).byteSize store.size
                · rw [if_pos full] at run
                  cases run
                · rw [if_neg full] at run
                  obtain ⟨records, behind, packed, sound, room, same⟩ := inductionHypothesis run
                  refine ⟨record :: records, behind, ?_,
                    List.forall_mem_cons.mpr ⟨sound_of_readRecord? first more, sound⟩,
                    fun _ => ?_, ?_⟩
                  · rw [pack_of_readRecord? first, packed]
                    simp only [List.flatMap_cons, List.append_assoc]
                  · rw [bytesOf_cons]
                    rcases eq_or_ne records [] with rfl | others
                    · exact Nat.le_of_not_lt full
                    · have within := room others
                      change store.used + record.byteSize store.size + _ ≤ _ at within
                      dsimp only at within ⊢
                      omega
                  · rw [same, bytesOf_cons]
                    simp only [List.append_assoc, Nat.add_assoc, List.singleton_append]

/-- The bytes that a store is read from open with its packing, which it accounts for to the byte,
and it is read from the packing whatever stands behind. -/
theorem exists_of_decode? {bytes : List Code} {read : Variables}
    (run : decode? size capacity bytes = some read) :
    (∃ rest, bytes = read.encode ++ rest) ∧
      read.used = read.encode.length ∧
      (1 ≤ capacity → read.used ≤ capacity) ∧
      ∀ other, decode? size capacity (read.encode ++ other) = some read := by
  obtain ⟨records, rest, packed, sound, room, rfl⟩ := exists_of_readRecords? run
  refine ⟨⟨rest, ?_⟩, ?_, fun some => ?_, fun other => ?_⟩
  · rw [packed, encode, List.append_assoc]
    rfl
  · rw [length_encode, Nat.add_comm]
    rfl
  · rcases eq_or_ne records [] with rfl | others
    · exact some
    · exact room others
  · rcases eq_or_ne records [] with rfl | others
    · rfl
    · exact decode?_encode ⟨rfl, rfl, rfl, room others, sound⟩ other

/-- What is read of a store ends with its packing: fewer bytes are no store, and with any more it
is the same one. -/
theorem decode?_take {bytes : List Code} {read : Variables}
    (run : decode? size capacity bytes = some read) (length : Nat) :
    decode? size capacity (bytes.take length) =
      if read.encode.length ≤ length then some read else none := by
  obtain ⟨⟨rest, rfl⟩, -, -, again⟩ := exists_of_decode? run
  split
  next enough =>
    rw [List.take_append, List.take_of_length_le enough]
    exact again _
  next short =>
    cases early : decode? size capacity ((read.encode ++ rest).take length) with
    | none => rfl
    | some other =>
        -- What is read from fewer bytes is read from all of them, so it is the same store.
        obtain ⟨⟨behind, taken⟩, -, -, others⟩ := exists_of_decode? early
        have whole := others (behind ++ (read.encode ++ rest).drop length)
        rw [← List.append_assoc, ← taken, List.take_append_drop, run] at whole
        cases whole
        have lengths := congrArg List.length taken
        rw [List.length_take, List.length_append, List.length_append] at lengths
        omega

end Variables
end HomeBasic
