import HomeBasic.Proofs.Variables.Sound

/-!
# Reading packed variables back

Main statements: a sound store comes back from its packing, with anything behind it
(`decode?_encode`), and whatever bytes are read as a store, it is a sound one
(`sound_of_decode?`).
-/

namespace HomeBasic
namespace Variables

variable {size : WordSize} {capacity : Nat} {store : Variables}

/-! ## What was packed is read back -/

/-- Only the header of an array could read as the end of the store, and its name is too short. -/
theorem header_ne_terminator {record : Record} (sound : record.Sound size) :
    record.header ≠ terminator := by
  intro same
  obtain ⟨length, tag⟩ := header_parts sound.named
  rw [same] at length tag
  have longest : record.name.length = 63 := length.symm.trans (by decide)
  have last : record.contents.tag = 3 := tag.symm.trans (by decide)
  have array : record.contents.family = .array := by
    rcases record with ⟨name, contents⟩
    cases contents <;> first | rfl | exact absurd last (by simp only [Variable.tag]; decide)
  have short := sound.arrayNamed array
  simp only [maxNameLength] at short
  omega

theorem readRecords?_pack {records : List Record} {steps : Nat} {store : Variables}
    (sound : ∀ record ∈ records, record.Sound store.size)
    (room : store.used + bytesOf store.size records ≤ store.capacity)
    (enough : records.length < steps) (rest : List Code) :
    readRecords? steps store (records.flatMap (·.pack store.size) ++ terminator :: rest) =
      some { store with
        used := store.used + bytesOf store.size records
        records := store.records ++ records } := by
  induction records generalizing steps store with
  | nil =>
      obtain ⟨steps, rfl⟩ : ∃ fewer, steps = fewer + 1 := ⟨steps - 1, by omega⟩
      simp [readRecords?, bytesOf]
  | cons record records inductionHypothesis =>
      obtain ⟨steps, rfl⟩ : ∃ fewer, steps = fewer + 1 := ⟨steps - 1, by omega⟩
      have first := sound record (by simp)
      have bytes : bytesOf store.size (record :: records) =
          record.byteSize store.size + bytesOf store.size records := rfl
      have packed : (record :: records).flatMap (·.pack store.size) ++ terminator :: rest =
          record.header :: (record.name ++ (record.contents.payload store.size ++
            (records.flatMap (·.pack store.size) ++ terminator :: rest))) := by
        simp [Record.pack]
      have fits : ¬store.capacity <
          store.used + (⟨record.name, record.contents⟩ : Record).byteSize store.size := by
        change ¬store.capacity < store.used + record.byteSize store.size
        omega
      rw [packed, readRecords?, if_neg (header_ne_terminator first),
        readRecord?_pack first.named first.packable]
      dsimp only
      rw [append_apply, if_neg fits]
      have others := @inductionHypothesis steps
        { store with
          used := store.used + record.byteSize store.size
          records := store.records ++ [record] }
        (fun other member => sound other (List.mem_cons_of_mem _ member))
        (by dsimp only; omega) (by simpa using enough)
      dsimp only at others ⊢
      rw [others, bytes, List.append_assoc, Nat.add_assoc]
      rfl

theorem length_encode (store : Variables) :
    store.encode.length = bytesOf store.size store.records + 1 := by
  simp only [encode, List.length_append, List.length_singleton, List.length_flatMap,
    Record.length_pack, bytesOf]

theorem length_le_bytesOf (size : WordSize) (records : List Record) :
    records.length ≤ bytesOf size records := by
  induction records with
  | nil => exact Nat.le_refl 0
  | cons record records inductionHypothesis =>
      simp only [bytesOf, Record.byteSize, List.map_cons, List.sum_cons, List.length_cons]
        at inductionHypothesis ⊢
      omega

/-- A sound store comes back from its packing, whatever stands behind it. -/
theorem decode?_encode (sound : store.Sound size capacity) (rest : List Code) :
    decode? size capacity (store.encode ++ rest) = some store := by
  have used := sound.used_eq
  have within := sound.within
  have length := length_encode store
  have many := length_le_bytesOf store.size store.records
  obtain ⟨rfl, rfl⟩ : store.size = size ∧ store.capacity = capacity :=
    ⟨sound.size_eq, sound.capacity_eq⟩
  have read := @readRecords?_pack store.records ((store.encode ++ rest).length + 1)
    (empty store.size store.capacity) sound.records (by dsimp only [empty]; omega)
    (by rw [List.length_append]; omega) rest
  have packed : store.encode ++ rest =
      store.records.flatMap (·.pack store.size) ++ terminator :: rest := by
    simp [encode]
  rw [decode?, packed]
  rw [packed] at read
  apply read.trans
  dsimp only [empty]
  rw [List.nil_append, ← used]

/-! ## Whatever is read is sound -/

theorem length_of_split? {count : Nat} {bytes first rest : List Code}
    (run : split? count bytes = some (first, rest)) : first.length = count := by
  unfold split? at run
  split at run
  next enough =>
    cases run
    exact List.length_take_of_le enough
  next => cases run

theorem fits_of_readWord? {bytes rest : List Code} {value : Int}
    (run : readWord? size bytes = some (value, rest)) : size.Fits value := by
  unfold readWord? at run
  cases first : split? size.byteCount bytes with
  | none =>
      rw [first] at run
      cases run
  | some word =>
      rw [first] at run
      cases run
      exact size.fits_ofBytes _

theorem fits_of_readWords? {count : Nat} {bytes rest : List Code} {values : List Int}
    (run : readWords? size count bytes = some (values, rest)) :
    values.length = count ∧ ∀ value ∈ values, size.Fits value := by
  induction count generalizing bytes values rest with
  | zero =>
      cases run
      exact ⟨rfl, by simp⟩
  | succ count inductionHypothesis =>
      simp only [readWords?, bind, Option.bind_eq_some_iff, Prod.exists] at run
      obtain ⟨value, middle, first, others, last, second, same⟩ := run
      cases same
      obtain ⟨length, fits⟩ := inductionHypothesis second
      exact ⟨by rw [List.length_cons, length],
        List.forall_mem_cons.mpr ⟨fits_of_readWord? first, fits⟩⟩

/-- The contents that are read are packable, and only the last kind of record is an array. -/
theorem packable_of_readPayload? {tag : UInt8} {bytes rest : List Code} {contents : Variable}
    (run : readPayload? size tag bytes = some (contents, rest)) :
    contents.Packable size ∧
      (contents.family = .array → tag ≠ 0 ∧ tag ≠ 1 ∧ tag ≠ 2) := by
  unfold readPayload? at run
  split at run
  next =>
    simp only [bind, Option.bind_eq_some_iff, Prod.exists] at run
    obtain ⟨value, middle, first, same⟩ := run
    cases same
    exact ⟨fits_of_readWord? first, nofun⟩
  next =>
    split at run
    next =>
      simp only [bind, Option.bind_eq_some_iff, Prod.exists] at run
      obtain ⟨value, middle, first, limit, later, second, resume, last, third, same⟩ := run
      cases same
      have small := Bytes.ofLittleEndian_lt resume
      rw [length_of_split? third] at small
      exact ⟨⟨fits_of_readWord? first, fits_of_readWord? second, small⟩, nofun⟩
    next =>
      split at run
      next =>
        simp only [bind, Option.bind_eq_some_iff] at run
        obtain ⟨length, found, same⟩ := run
        cases same
        exact ⟨(Bytes.split_at_mark found).1, nofun⟩
      next =>
        split at run
        next => cases run
        next maxIndex others =>
          simp only [bind, Option.bind_eq_some_iff, Prod.exists] at run
          obtain ⟨values, last, read, same⟩ := run
          cases same
          obtain ⟨length, fits⟩ := fits_of_readWords? read
          have bound := maxIndex.toNat_lt
          refine ⟨⟨?_, by omega, fits⟩, fun _ => ⟨‹_›, ‹_›, ‹_›⟩⟩
          rintro rfl
          cases length

/-- A header of the last kind with the longest name is the end of the store. -/
theorem header_eq_terminator {header : Code} (first : header >>> 6 ≠ 0) (second : header >>> 6 ≠ 1)
    (third : header >>> 6 ≠ 2) (longest : (header &&& 0x3F).toNat = maxNameLength) :
    header = terminator := by
  have every : ∀ value : Fin 256, UInt8.ofNat value.val >>> 6 ≠ 0 →
      UInt8.ofNat value.val >>> 6 ≠ 1 → UInt8.ofNat value.val >>> 6 ≠ 2 →
      (UInt8.ofNat value.val &&& 0x3F).toNat = maxNameLength →
      UInt8.ofNat value.val = terminator := by
    decide +kernel
  have same := every ⟨header.toNat, header.toNat_lt⟩
  rw [UInt8.ofNat_toNat] at same
  exact same first second third longest

theorem sound_of_readRecord? {header : Code} {bytes rest : List Code} {record : Record}
    (run : readRecord? size header bytes = some (record, rest)) (more : header ≠ terminator) :
    record.Sound size := by
  simp only [readRecord?, bind, Option.bind_eq_some_iff, Prod.exists] at run
  obtain ⟨name, middle, named, contents, last, read, same⟩ := run
  cases same
  have length := length_of_split? named
  obtain ⟨packable, array⟩ := packable_of_readPayload? read
  have short : name.length ≤ maxNameLength := by
    rw [length, UInt8.toNat_and]
    exact Nat.and_le_right
  refine ⟨short, fun family => Nat.lt_of_le_of_ne short fun longest => more ?_, packable⟩
  obtain ⟨first, second, third⟩ := array family
  exact header_eq_terminator first second third (length.symm.trans longest)

theorem Sound.of_readRecords? {steps : Nat} {bytes : List Code} {read : Variables}
    (sound : store.Sound size capacity) (run : readRecords? steps store bytes = some read) :
    read.Sound size capacity := by
  induction steps generalizing store bytes with
  | zero => cases run
  | succ steps inductionHypothesis =>
      cases bytes with
      | nil => cases run
      | cons header bytes =>
          rw [readRecords?] at run
          split at run
          next =>
            cases run
            exact sound
          next more =>
            cases first : readRecord? store.size header bytes with
            | none =>
                rw [first] at run
                cases run
            | some result =>
                obtain ⟨record, rest⟩ := result
                rw [first] at run
                rw [sound.size_eq] at first
                have appended := sustains_append (sound_of_readRecord? first more) store sound
                dsimp only at run
                generalize append record.name record.contents store = outcome at run appended
                rcases outcome with ⟨fault | _, longer⟩
                · cases run
                · exact inductionHypothesis appended.2 run

/-- Whatever bytes are read as a store, it is a sound one. -/
theorem sound_of_decode? {bytes : List Code} {read : Variables} (room : 1 ≤ capacity)
    (run : decode? size capacity bytes = some read) : read.Sound size capacity :=
  (sound_empty room).of_readRecords? run

end Variables
end HomeBasic
