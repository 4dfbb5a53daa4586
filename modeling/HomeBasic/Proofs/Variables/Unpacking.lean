import HomeBasic.Proofs.Variables.Bounds

/-!
# Bounds of packed variables

A packed store is read from place to place, each record as far as its header, its own bytes
and the quote behind a text say. Whatever these say, no place is behind the last byte, so that
what is left of the bytes is always a slice of them.

Main statement: `checkedDecode_eq`.
-/

namespace HomeBasic
namespace Variables

open Checked

variable {α β : Type} {bytes : List Code} {position : Nat}

/-! ## With everything checked -/

/-- So many bytes from a place on, if there are as many, and the place behind them. -/
def splitAt? (bytes : List Code) (count position : Nat) : Option (List Code × Nat) :=
  (slice? bytes position (position + count)).map fun taken => (taken, position + count)

/-- The word at a place. -/
def wordAt? (size : WordSize) (bytes : List Code) (position : Nat) : Option (Int × Nat) :=
  (splitAt? bytes size.byteCount position).map fun (word, after) => (size.ofBytes word, after)

/-- So many words from a place on. -/
def wordsAt? (size : WordSize) (bytes : List Code) :
    (count position : Nat) → Option (List Int × Nat)
  | 0, position => some ([], position)
  | count + 1, position => do
      let (value, after) ← wordAt? size bytes position
      let (values, after) ← wordsAt? size bytes count after
      return (value :: values, after)

/-- A text at a place, among the bytes that are left there. -/
def textAt? (bytes left : List Code) (position : Nat) : Option (Variable × Nat) := do
  let length ← left.findIdx? (· == Code.quote)
  let (codes, after) ← splitAt? bytes length position
  let (_, after) ← splitAt? bytes 1 after
  return (.text codes, after)

/-- The contents at a place, of a kind of record. The end of a text is looked for in what is
left. -/
def checkedPayloadAt (size : WordSize) (bytes : List Code) (tag : UInt8) (position : Nat) :
    Option (Option (Variable × Nat)) :=
  if tag = 0 then
    some do
      let (value, after) ← wordAt? size bytes position
      return (.number value, after)
  else if tag = 1 then
    some do
      let (value, after) ← wordAt? size bytes position
      let (limit, after) ← wordAt? size bytes after
      let (resume, after) ← splitAt? bytes 2 after
      return (.loop value limit (Bytes.ofLittleEndian resume), after)
  else if tag = 2 then do
    return textAt? bytes (← slice? bytes position bytes.length) position
  else
    match bytes[position]? with
    | none => some none
    | some maxIndex =>
        some do
          let (values, after) ← wordsAt? size bytes (maxIndex.toNat + 1) (position + 1)
          return (.array values, after)

/-- The record whose header stands before a place. -/
def checkedRecordAt (size : WordSize) (bytes : List Code) (header : Code) (position : Nat) :
    Option (Option (Record × Nat)) :=
  match splitAt? bytes (header &&& 0x3F).toNat position with
  | none => some none
  | some (name, after) => do
      match ← checkedPayloadAt size bytes (header >>> 6) after with
      | none => return none
      | some (contents, after) => return some (⟨name, contents⟩, after)

/-- Reads at most `steps` records from a place on onto a store, up to the end of the store. -/
def checkedRecordsAt (bytes : List Code) :
    (steps : Nat) → Variables → (position : Nat) → Option (Option Variables)
  | 0, _, _ => some none
  | steps + 1, store, position =>
      match bytes[position]? with
      | none => some none
      | some header =>
          if header = terminator then
            some (some store)
          else do
            match ← checkedRecordAt store.size bytes header (position + 1) with
            | none => return none
            | some (record, after) =>
                match ← checkedAppend record.name record.contents store with
                | (.ok (), longer) => checkedRecordsAt bytes steps longer after
                | (.error _, _) => return none

/-- The store that bytes open with, if it is well formed and fits. -/
def checkedDecode (size : WordSize) (capacity : Nat) (bytes : List Code) :
    Option (Option Variables) :=
  checkedRecordsAt bytes (bytes.length + 1) (empty size capacity) 0

/-! ## From place to place -/

/-- What is read at a place is what is read from the bytes that are left there, and the place
behind it is within the bytes or at their end. -/
structure ReadsAlike (bytes : List Code) (here : Option (α × Nat))
    (plain : Option (α × List Code)) : Prop where
  eq : plain = here.map fun (value, after) => (value, bytes.drop after)
  inside : ∀ value after, here = some (value, after) → after ≤ bytes.length

namespace ReadsAlike

variable {here : Option (α × Nat)} {plain : Option (α × List Code)}

theorem pure (inside : position ≤ bytes.length) (value : α) :
    ReadsAlike bytes (some (value, position)) (some (value, bytes.drop position)) where
  eq := rfl
  inside other after same := by
    cases same
    exact inside

theorem bind {next : α × Nat → Option (β × Nat)}
    {following : α × List Code → Option (β × List Code)} (first : ReadsAlike bytes here plain)
    (rest : ∀ value after, after ≤ bytes.length →
      ReadsAlike bytes (next (value, after)) (following (value, bytes.drop after))) :
    ReadsAlike bytes (here >>= next) (plain >>= following) := by
  obtain ⟨rfl, inside⟩ := first
  rcases here with _ | ⟨value, after⟩
  · exact ⟨rfl, nofun⟩
  · exact rest value after (inside value after rfl)

theorem map (first : ReadsAlike bytes here plain) (change : α → β) :
    ReadsAlike bytes (here.map fun (value, after) => (change value, after))
      (plain.map fun (value, left) => (change value, left)) := by
  obtain ⟨rfl, inside⟩ := first
  rcases here with _ | ⟨value, after⟩
  · exact ⟨rfl, nofun⟩
  · exact pure (inside value after rfl) (change value)

end ReadsAlike

theorem readsAlike_split (inside : position ≤ bytes.length) (count : Nat) :
    ReadsAlike bytes (splitAt? bytes count position) (split? count (bytes.drop position)) := by
  unfold splitAt? split?
  rw [List.length_drop]
  by_cases enough : position + count ≤ bytes.length
  · rw [slice?_eq (Nat.le_add_right _ _) enough, if_pos (by omega), List.drop_take,
      Nat.add_sub_cancel_left, List.drop_drop]
    exact ReadsAlike.pure enough _
  · rw [slice?, if_neg fun within => enough within.2, if_neg (by omega)]
    exact ⟨rfl, nofun⟩

theorem readsAlike_word (size : WordSize) (inside : position ≤ bytes.length) :
    ReadsAlike bytes (wordAt? size bytes position) (readWord? size (bytes.drop position)) :=
  (readsAlike_split inside size.byteCount).map size.ofBytes

theorem readsAlike_words (size : WordSize) (inside : position ≤ bytes.length) (count : Nat) :
    ReadsAlike bytes (wordsAt? size bytes count position)
      (readWords? size count (bytes.drop position)) := by
  induction count generalizing position with
  | zero => exact ReadsAlike.pure inside []
  | succ count inductionHypothesis =>
      refine (readsAlike_word size inside).bind fun value after inside => ?_
      exact (inductionHypothesis inside).bind fun values after inside =>
        ReadsAlike.pure inside (value :: values)

/-- The quote that ends a text is one of the bytes, and so are those before it. -/
theorem readsAlike_text (inside : position ≤ bytes.length) :
    ReadsAlike bytes (textAt? bytes (bytes.drop position) position) (do
      let length ← (bytes.drop position).findIdx? (· == Code.quote)
      return (.text ((bytes.drop position).take length),
        (bytes.drop position).drop (length + 1))) := by
  unfold textAt?
  cases found : (bytes.drop position).findIdx? (· == Code.quote) with
  | none => exact ⟨rfl, nofun⟩
  | some length =>
      have short : length < (bytes.drop position).length :=
        (List.findIdx?_eq_some_iff_getElem.mp found).1
      rw [List.length_drop] at short
      have codes : splitAt? bytes length position =
          some ((bytes.drop position).take length, position + length) := by
        rw [splitAt?, slice?_eq (Nat.le_add_right _ _) (by omega), List.drop_take,
          Nat.add_sub_cancel_left]
        rfl
      have mark : ∃ quote, splitAt? bytes 1 (position + length) =
          some (quote, position + length + 1) :=
        ⟨_, by rw [splitAt?, slice?_eq (Nat.le_add_right _ _) (by omega)]; rfl⟩
      obtain ⟨quote, mark⟩ := mark
      simp only [Option.bind_eq_bind, Option.bind_some, codes, mark]
      rw [List.drop_drop, ← Nat.add_assoc]
      exact ReadsAlike.pure (by omega) _

theorem drop_of_getElem? {code : Code} (first : bytes[position]? = some code) :
    position + 1 ≤ bytes.length ∧ bytes.drop position = code :: bytes.drop (position + 1) := by
  obtain ⟨inside, rfl⟩ := List.getElem?_eq_some_iff.mp first
  exact ⟨inside, List.drop_eq_getElem_cons inside⟩

/-- The contents of a record are read within bounds, whatever they are. -/
theorem exists_checkedPayloadAt (size : WordSize) (tag : UInt8)
    (inside : position ≤ bytes.length) :
    ∃ here, checkedPayloadAt size bytes tag position = some here ∧
      ReadsAlike bytes here (readPayload? size tag (bytes.drop position)) := by
  unfold checkedPayloadAt readPayload?
  split
  · refine ⟨_, rfl, ?_⟩
    exact (readsAlike_word size inside).bind fun value after inside => ReadsAlike.pure inside _
  · split
    · refine ⟨_, rfl, ?_⟩
      exact (readsAlike_word size inside).bind fun value after inside =>
        (readsAlike_word size inside).bind fun limit after inside =>
          (readsAlike_split inside 2).bind fun resume after inside => ReadsAlike.pure inside _
    · split
      · rw [slice?_eq inside (Nat.le_refl _), List.take_length]
        exact ⟨_, rfl, readsAlike_text inside⟩
      · cases first : bytes[position]? with
        | none =>
            rw [List.drop_eq_nil_of_le (List.getElem?_eq_none_iff.mp first)]
            exact ⟨_, rfl, rfl, nofun⟩
        | some maxIndex =>
            obtain ⟨inside, left⟩ := drop_of_getElem? first
            rw [left]
            exact ⟨_, rfl, (readsAlike_words size inside _).bind fun values after inside =>
              ReadsAlike.pure inside _⟩

theorem exists_checkedRecordAt (size : WordSize) (header : Code)
    (inside : position ≤ bytes.length) :
    ∃ here, checkedRecordAt size bytes header position = some here ∧
      ReadsAlike bytes here (readRecord? size header (bytes.drop position)) := by
  obtain ⟨same, within⟩ := readsAlike_split inside (header &&& 0x3F).toNat
  unfold checkedRecordAt readRecord?
  rw [same]
  cases named : splitAt? bytes (header &&& 0x3F).toNat position with
  | none => exact ⟨_, rfl, rfl, nofun⟩
  | some read =>
      obtain ⟨name, after⟩ := read
      obtain ⟨here, read, alike⟩ :=
        exists_checkedPayloadAt size (header >>> 6) (within name after named)
      dsimp only [Option.map_some, Option.bind_eq_bind, Option.bind_some]
      rw [read]
      refine ⟨here >>= fun (contents, after) => some (⟨name, contents⟩, after), ?_, ?_⟩
      · cases here <;> rfl
      · exact alike.bind fun contents after inside => ReadsAlike.pure inside _

theorem checkedRecordsAt_eq (steps : Nat) (store : Variables) (inside : position ≤ bytes.length) :
    checkedRecordsAt bytes steps store position =
      some (readRecords? steps store (bytes.drop position)) := by
  induction steps generalizing store position with
  | zero => rfl
  | succ steps inductionHypothesis =>
      rw [checkedRecordsAt]
      cases first : bytes[position]? with
      | none =>
          rw [List.drop_eq_nil_of_le (List.getElem?_eq_none_iff.mp first)]
          rfl
      | some header =>
          obtain ⟨inside, left⟩ := drop_of_getElem? first
          rw [left, readRecords?]
          dsimp only
          split
          · rfl
          · obtain ⟨here, read, same, within⟩ := exists_checkedRecordAt store.size header inside
            rw [read, same]
            rcases here with _ | ⟨record, after⟩
            · rfl
            · have appended : checkedAppend record.name record.contents store =
                  some (append record.name record.contents store) :=
                succeeds_append record.name record.contents store
              dsimp only [Option.map_some, Option.bind_eq_bind, Option.bind_some]
              rw [appended]
              rcases append record.name record.contents store with ⟨fault | _, longer⟩
              · rfl
              · exact inductionHypothesis longer (within record after rfl)

/-- Whatever bytes are read as a store, they are read within their bounds. -/
theorem checkedDecode_eq (size : WordSize) (capacity : Nat) (bytes : List Code) :
    checkedDecode size capacity bytes = some (decode? size capacity bytes) :=
  checkedRecordsAt_eq _ _ (Nat.zero_le _)

end Variables
end HomeBasic
