import HomeBasic.Variables

/-!
# Packed variables

A packed record is a header with the kind of record in its top two bits and the
length of the name in the others, then the name and the contents. One byte more
ends the store. No record may have a header like that byte, and no text holds the
quote that ends it.

Main statements: a record takes as many bytes as it is accounted for
(`Record.length_pack`), and a packed record is read back (`readRecord?_pack`).
-/

namespace HomeBasic

namespace Variable

/-- The kind of record, as the header shows it. -/
def tag : Variable → UInt8
  | number _ => 0
  | loop .. => 1
  | text _ => 2
  | array _ => 3

/-- The contents as they are packed. -/
def payload (size : WordSize) : Variable → List Code
  | number value => size.toBytes value
  | loop value limit resume =>
      size.toBytes value ++ size.toBytes limit ++ Bytes.toLittleEndian 2 resume
  | array values => UInt8.ofNat (values.length - 1) :: values.flatMap size.toBytes
  | text codes => codes ++ [Code.quote]

/-- The contents take as many bytes as they are accounted for. -/
theorem length_payload (size : WordSize) (contents : Variable) :
    (contents.payload size).length = contents.payloadSize size := by
  cases contents with
  | number value => simp [payload, payloadSize]
  | loop value limit resume => simp [payload, payloadSize]; omega
  | text codes => simp [payload, payloadSize]
  | array values =>
      have length : (values.flatMap size.toBytes).length = values.length * size.byteCount := by
        induction values with
        | nil => simp
        | cons value rest inductionHypothesis =>
            simp [inductionHypothesis, Nat.succ_mul, Nat.add_comm]
      simp [payload, payloadSize, length, Nat.add_comm]

/-- The contents come back from their packing: all words fit, and nothing ends them too early. -/
def Packable (size : WordSize) : Variable → Prop
  | number value => size.Fits value
  | loop value limit resume => size.Fits value ∧ size.Fits limit ∧ resume < 65536
  | array values => values ≠ [] ∧ values.length ≤ 256 ∧ ∀ value ∈ values, size.Fits value
  | text codes => Code.quote ∉ codes

end Variable

namespace Variables

namespace Record

/-- The byte that opens a record. -/
def header (record : Record) : Code :=
  record.contents.tag <<< 6 ||| UInt8.ofNat record.name.length

/-- A record as it is packed. -/
def pack (size : WordSize) (record : Record) : List Code :=
  record.header :: record.name ++ record.contents.payload size

/-- A record takes as many bytes as its packing. -/
@[simp] theorem length_pack (size : WordSize) (record : Record) :
    (record.pack size).length = record.byteSize size := by
  simp [pack, byteSize, Variable.length_payload]
  omega

end Record

/-- The byte that ends the store. -/
def terminator : Code := 0xFF

/-- The store as it is packed, its end included. -/
def encode (store : Variables) : List Code :=
  store.records.flatMap (·.pack store.size) ++ [terminator]

/-- The first bytes, if there are as many, and the rest. -/
def split? (count : Nat) (bytes : List Code) : Option (List Code × List Code) :=
  if count ≤ bytes.length then some (bytes.take count, bytes.drop count) else none

/-- The word that bytes open with. -/
def readWord? (size : WordSize) (bytes : List Code) : Option (Int × List Code) :=
  (split? size.byteCount bytes).map fun (word, rest) => (size.ofBytes word, rest)

/-- So many words that bytes open with. -/
def readWords? (size : WordSize) : Nat → List Code → Option (List Int × List Code)
  | 0, bytes => some ([], bytes)
  | count + 1, bytes => do
      let (value, rest) ← readWord? size bytes
      let (values, rest) ← readWords? size count rest
      return (value :: values, rest)

/-- The contents that bytes open with, of a kind of record. -/
def readPayload? (size : WordSize) (tag : UInt8) (bytes : List Code) :
    Option (Variable × List Code) :=
  if tag = 0 then do
    let (value, rest) ← readWord? size bytes
    return (.number value, rest)
  else if tag = 1 then do
    let (value, rest) ← readWord? size bytes
    let (limit, rest) ← readWord? size rest
    let (resume, rest) ← split? 2 rest
    return (.loop value limit (Bytes.ofLittleEndian resume), rest)
  else if tag = 2 then do
    let length ← bytes.findIdx? (· == Code.quote)
    return (.text (bytes.take length), bytes.drop (length + 1))
  else
    match bytes with
    | [] => none
    | maxIndex :: rest => do
        let (values, rest) ← readWords? size (maxIndex.toNat + 1) rest
        return (.array values, rest)

/-- The record that bytes open with, given its header. -/
def readRecord? (size : WordSize) (header : Code) (bytes : List Code) :
    Option (Record × List Code) := do
  let (name, rest) ← split? (header &&& 0x3F).toNat bytes
  let (contents, rest) ← readPayload? size (header >>> 6) rest
  return (⟨name, contents⟩, rest)

/-- Reads at most `steps` records from bytes onto a store, up to the end of the store. -/
def readRecords? : (steps : Nat) → Variables → List Code → Option Variables
  | steps + 1, store, header :: bytes =>
      if header = terminator then
        some store
      else
        match readRecord? store.size header bytes with
        | none => none
        | some (record, rest) =>
            match append record.name record.contents store with
            | (.ok (), longer) => readRecords? steps longer rest
            | (.error _, _) => none
  | _, _, _ => none

/-- The store that bytes open with, if it is well formed and fits. -/
def decode? (size : WordSize) (capacity : Nat) (bytes : List Code) : Option Variables :=
  readRecords? (bytes.length + 1) (empty size capacity) bytes

@[simp] theorem encode_empty (size : WordSize) (capacity : Nat) :
    (empty size capacity).encode = [terminator] := rfl

/-! ## Reading back what was packed -/

@[simp] theorem split?_append {first : List Code} {count : Nat} (length : first.length = count)
    (rest : List Code) : split? count (first ++ rest) = some (first, rest) := by
  subst length
  simp [split?]

theorem readWord?_toBytes {size : WordSize} {value : Int} (fits : size.Fits value)
    (rest : List Code) : readWord? size (size.toBytes value ++ rest) = some (value, rest) := by
  simp [readWord?, WordSize.ofBytes_toBytes fits]

theorem readWords?_toBytes {size : WordSize} {values : List Int}
    (fits : ∀ value ∈ values, size.Fits value) (rest : List Code) :
    readWords? size values.length (values.flatMap size.toBytes ++ rest) = some (values, rest) := by
  induction values with
  | nil => rfl
  | cons value values inductionHypothesis =>
      have first := readWord?_toBytes (fits value (by simp)) (values.flatMap size.toBytes ++ rest)
      have others := inductionHypothesis fun other member => fits other (by simp [member])
      simp [readWords?, first, others]

/-- Packed contents are read back. -/
theorem readPayload?_payload {size : WordSize} {contents : Variable}
    (packable : contents.Packable size) (rest : List Code) :
    readPayload? size contents.tag (contents.payload size ++ rest) = some (contents, rest) := by
  cases contents with
  | number value =>
      simp [readPayload?, Variable.tag, Variable.payload, readWord?_toBytes packable]
  | loop value limit resume =>
      obtain ⟨valueFits, limitFits, small⟩ := packable
      have line : Bytes.ofLittleEndian (Bytes.toLittleEndian 2 resume) = resume := by
        rw [Bytes.ofLittleEndian_toLittleEndian]
        exact Nat.mod_eq_of_lt small
      simp [readPayload?, Variable.tag, Variable.payload, readWord?_toBytes valueFits,
        readWord?_toBytes limitFits, line]
  | array values =>
      obtain ⟨nonempty, short, fits⟩ := packable
      have count : (UInt8.ofNat (values.length - 1)).toNat + 1 = values.length := by
        have : 0 < values.length := List.length_pos_iff.mpr nonempty
        simp
        omega
      have words := readWords?_toBytes fits rest
      simp only [Variable.tag, Variable.payload, readPayload?, List.cons_append, count, words]
      rfl
  | text codes =>
      simp [readPayload?, Variable.tag, Variable.payload, Bytes.findIdx?_first packable]

/-- A header tells the length of the name and the kind of record. -/
theorem header_parts {record : Record} (named : record.name.length ≤ maxNameLength) :
    (record.header &&& 0x3F).toNat = record.name.length ∧
      record.header >>> 6 = record.contents.tag := by
  have every : ∀ tag : Fin 4, ∀ length : Fin 64,
      ((UInt8.ofNat tag.val <<< 6 ||| UInt8.ofNat length.val) &&& 0x3F).toNat = length.val ∧
        (UInt8.ofNat tag.val <<< 6 ||| UInt8.ofNat length.val) >>> 6 = UInt8.ofNat tag.val := by
    decide
  have bound : record.name.length < 64 := Nat.lt_succ_of_le named
  unfold Record.header
  cases record.contents with
  | number value => exact every 0 ⟨_, bound⟩
  | loop value limit resume => exact every 1 ⟨_, bound⟩
  | text codes => exact every 2 ⟨_, bound⟩
  | array values => exact every 3 ⟨_, bound⟩

/-- A packed record is read back. -/
theorem readRecord?_pack {size : WordSize} {record : Record}
    (named : record.name.length ≤ maxNameLength) (packable : record.contents.Packable size)
    (rest : List Code) :
    readRecord? size record.header (record.name ++ (record.contents.payload size ++ rest)) =
      some (record, rest) := by
  obtain ⟨length, tag⟩ := header_parts named
  simp [readRecord?, length, tag, readPayload?_payload packable]

end Variables
end HomeBasic
