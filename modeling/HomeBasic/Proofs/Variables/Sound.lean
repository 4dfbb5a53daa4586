import HomeBasic.Proofs.Attempt.Rules
import HomeBasic.Proofs.Number.Words
import HomeBasic.Variables.Packing

/-!
# Sound variable stores

A sound store accounts for the bytes of its records to the byte and stays within its
room, and each of its records comes back from its packing (`Variables.Sound`).

Main statements: everything that changes a store leaves it sound (`sustains_assignNumber`,
…, `sustains_stepLoop`), and what is looked up in it is a word or a text without a quote.
-/

namespace HomeBasic

open Attempt (Sustains)

namespace Variables

/-- A record that comes back from its packing, its header included. -/
structure Record.Sound (size : WordSize) (record : Record) : Prop where
  named : record.name.length ≤ maxNameLength
  arrayNamed : record.contents.family = .array → record.name.length < maxNameLength
  packable : record.contents.Packable size

/-- The bytes that records take. -/
def bytesOf (size : WordSize) (records : List Record) : Nat :=
  (records.map (·.byteSize size)).sum

/-- A store that accounts for its records and holds none but sound ones. -/
structure Sound (size : WordSize) (capacity : Nat) (store : Variables) : Prop where
  size_eq : store.size = size
  capacity_eq : store.capacity = capacity
  used_eq : store.used = 1 + bytesOf size store.records
  within : store.used ≤ capacity
  records : ∀ record ∈ store.records, record.Sound size

variable {size : WordSize} {capacity : Nat} {store : Variables} {name : Name} {family : Family}

theorem sound_empty (room : 1 ≤ capacity) : (empty size capacity).Sound size capacity :=
  ⟨rfl, rfl, rfl, room, by simp [empty]⟩

theorem Sound.clear (sound : store.Sound size capacity) : store.clear.Sound size capacity := by
  rw [Variables.clear, sound.size_eq, sound.capacity_eq]
  have used := sound.used_eq
  have within := sound.within
  exact sound_empty (by omega)

/-! ## Looking up -/

theorem position?_eq_some {position : Nat} (found : store.position? name family = some position) :
    ∃ record, store.records[position]? = some record ∧ record.isFor name family = true := by
  obtain ⟨inside, holds, _⟩ := List.findIdx?_eq_some_iff_getElem.mp found
  exact ⟨store.records[position], List.getElem?_eq_getElem inside, holds⟩

/-- A name and a family tell the record at their place. -/
theorem get?_eq (store : Variables) (name : Name) (family : Family) :
    store.get? name family =
      (store.position? name family).bind fun position =>
        (store.records[position]?).map (·.contents) := by
  unfold get? position?
  induction store.records with
  | nil => rfl
  | cons record rest inductionHypothesis =>
      rw [List.find?_cons, List.findIdx?_cons]
      cases record.isFor name family with
      | true => rfl
      | false =>
          simp only [inductionHypothesis, Bool.false_eq_true, if_false]
          cases rest.findIdx? (·.isFor name family) <;> rfl

theorem exists_of_get? {contents : Variable} (found : store.get? name family = some contents) :
    ∃ record ∈ store.records, record.isFor name family = true ∧ record.contents = contents := by
  unfold get? at found
  cases first : store.records.find? (·.isFor name family) with
  | none =>
      rw [first] at found
      cases found
  | some record =>
      rw [first] at found
      cases found
      have matched := List.find?_some first
      exact ⟨record, List.mem_of_find?_eq_some first, matched, rfl⟩

theorem Sound.packable_of_get? {contents : Variable} (sound : store.Sound size capacity)
    (found : store.get? name family = some contents) : contents.Packable size := by
  obtain ⟨record, member, _, rfl⟩ := exists_of_get? found
  exact (sound.records record member).packable

theorem Sound.fits_number {value : Int} (sound : store.Sound size capacity)
    (run : store.number name = .ok value) : size.Fits value := by
  unfold number at run
  split at run
  next found =>
    cases run
    exact sound.packable_of_get? found
  next found =>
    cases run
    exact (sound.packable_of_get? found).1
  next => cases run

theorem Sound.unquoted_text {codes : List Code} (sound : store.Sound size capacity)
    (run : store.text name = .ok codes) : Code.quote ∉ codes := by
  unfold text at run
  split at run
  next found =>
    cases run
    exact sound.packable_of_get? found
  next => cases run

theorem elementAt_lt {values : List Int} {index : Int} {place : Nat}
    (run : elementAt values index = .ok place) : place < values.length := by
  unfold elementAt at run
  split at run
  · cases run
    omega
  · cases run

theorem Sound.fits_element {index value : Int} (sound : store.Sound size capacity)
    (run : store.element name index = .ok value) : size.Fits value := by
  unfold element at run
  split at run
  next values found =>
    obtain ⟨_, _, fits⟩ := sound.packable_of_get? found
    cases placed : elementAt values index with
    | error fault =>
        rw [placed] at run
        cases run
    | ok place =>
        rw [placed] at run
        cases run
        have inside := elementAt_lt placed
        rw [List.getD_eq_getElem?_getD, List.getElem?_eq_getElem inside, Option.getD_some]
        exact fits _ (List.getElem_mem inside)
  next => cases run

/-! ## Accounting -/

theorem bytesOf_append (size : WordSize) (records : List Record) (record : Record) :
    bytesOf size (records ++ [record]) = bytesOf size records + record.byteSize size := by
  simp [bytesOf]

theorem bytesOf_modify (size : WordSize) {records : List Record} {position : Nat}
    {record : Record} (placed : records[position]? = some record) (change : Record → Record) :
    bytesOf size (records.modify position change) + record.byteSize size =
      bytesOf size records + (change record).byteSize size := by
  induction records generalizing position with
  | nil => cases placed
  | cons first rest inductionHypothesis =>
      cases position with
      | zero =>
          cases placed
          simp only [bytesOf, List.modify_zero_cons, List.map_cons, List.sum_cons]
          omega
      | succ position =>
          have others := inductionHypothesis placed
          simp only [bytesOf, List.modify_succ_cons, List.map_cons, List.sum_cons] at others ⊢
          omega

theorem bytesOf_eraseIdx (size : WordSize) {records : List Record} {position : Nat}
    {record : Record} (placed : records[position]? = some record) :
    bytesOf size (records.eraseIdx position) + record.byteSize size = bytesOf size records := by
  induction records generalizing position with
  | nil => cases placed
  | cons first rest inductionHypothesis =>
      cases position with
      | zero =>
          cases placed
          simp only [bytesOf, List.eraseIdx_cons_zero, List.map_cons, List.sum_cons]
          omega
      | succ position =>
          have others := inductionHypothesis placed
          simp only [bytesOf, List.eraseIdx_cons_succ, List.map_cons, List.sum_cons] at others ⊢
          omega

/-! ## Changing -/

/-- Every change leaves the store sound. -/
abbrev Sustained {α : Type} (size : WordSize) (capacity : Nat) (step : Attempt Variables α) :
    Prop :=
  Sustains (Variables.Sound size capacity) step fun _ => True

theorem append_apply (name : Name) (contents : Variable) (store : Variables) :
    append name contents store =
      if store.capacity < store.used + (⟨name, contents⟩ : Record).byteSize store.size then
        (.error .outOfMemory, store)
      else
        (.ok (), { store with
          used := store.used + (⟨name, contents⟩ : Record).byteSize store.size
          records := store.records ++ [⟨name, contents⟩] }) := by
  have some : 0 < (⟨name, contents⟩ : Record).byteSize store.size := by
    simp only [Record.byteSize]
    omega
  simp only [append, resize, Attempt.bind_apply, Attempt.get_apply, Nat.sub_zero, some,
    true_and]
  by_cases full : store.capacity <
      store.used + (⟨name, contents⟩ : Record).byteSize store.size
  · simp only [if_pos full]
  · simp only [if_neg full]
    rfl

/-- Puts an array of zeros in place of any of the same name. -/
def placeArray (name : Name) (maxIndex : Int) : Attempt Variables Unit := do
  match (← get).position? name .array with
  | none => pure ()
  | some position => remove position
  append name (.array (List.replicate (maxIndex.toNat + 1) 0))

theorem declareArray_eq (name : Name) (maxIndex : Int) :
    declareArray name maxIndex =
      if maxIndex < 0 ∨ maxArrayIndex < maxIndex then throw .subscriptOutOfRange
      else if maxNameLength ≤ name.length then throw .syntaxError
      else placeArray name maxIndex := by
  unfold declareArray
  split
  · rfl
  · split <;> rfl

theorem sustains_append {contents : Variable} (record : Record.Sound size ⟨name, contents⟩) :
    Sustained size capacity (append name contents) := by
  intro store sound
  rw [append_apply, sound.size_eq, sound.capacity_eq]
  split
  next => exact sound
  next room =>
    refine ⟨trivial, rfl, rfl, ?_, Nat.le_of_not_lt room, ?_⟩
    · rw [bytesOf_append, sound.used_eq, Nat.add_assoc]
    · intro other member
      rcases List.mem_append.mp member with old | new
      · exact sound.records other old
      · obtain rfl := List.mem_singleton.mp new
        exact record

/-- What stands in a modified list stood there before, or is the change of what stood there. -/
theorem mem_modify {records : List Record} {position : Nat} {change : Record → Record}
    {record : Record} (member : record ∈ records.modify position change) :
    record ∈ records ∨ ∃ old, records[position]? = some old ∧ record = change old := by
  obtain ⟨index, inside, rfl⟩ := List.mem_iff_getElem.mp member
  rw [List.getElem_modify]
  have inside : index < records.length := by simpa using inside
  split
  next here =>
    subst here
    exact .inr ⟨records[position], List.getElem?_eq_getElem inside, rfl⟩
  next => exact .inl (List.getElem_mem inside)

/-- A record takes the place of another, and is accounted for. -/
theorem Sound.modify {position used : Nat} {record : Record} {change : Record → Record}
    (sound : store.Sound size capacity) (placed : store.records[position]? = some record)
    (changed : (change record).Sound size)
    (accounted : used + record.byteSize size = store.used + (change record).byteSize size)
    (within : used ≤ capacity) :
    Variables.Sound size capacity
      { store with used, records := store.records.modify position change } := by
  have bytes := bytesOf_modify size placed change
  have before := sound.used_eq
  refine ⟨sound.size_eq, sound.capacity_eq, by dsimp only; omega, within, ?_⟩
  intro other member
  rcases mem_modify member with old | ⟨old, here, rfl⟩
  · exact sound.records other old
  · rw [placed] at here
    cases here
    exact changed

/-- A store comes out sound, whether a step ended well or not. -/
def Left (size : WordSize) (capacity : Nat) : Except Fault Unit × Variables → Prop :=
  Attempt.Meets (fun _ changed => True ∧ changed.Sound size capacity)
    (fun _ changed => changed.Sound size capacity)

/-- Contents of the same family and as many bytes take the place of others. -/
theorem Sound.overwrite {position : Nat} {record : Record} {change : Variable → Variable}
    (sound : store.Sound size capacity) (placed : store.records[position]? = some record)
    (packable : (change record.contents).Packable size)
    (family : (change record.contents).family = record.contents.family)
    (alike : (change record.contents).payloadSize size = record.contents.payloadSize size) :
    Left size capacity (Variables.overwrite position change store) := by
  have old := sound.records record (List.mem_of_getElem? placed)
  refine ⟨trivial, sound.modify placed ⟨old.named, fun array => old.arrayNamed ?_, packable⟩ ?_
    sound.within⟩
  · rw [← family]
    exact array
  · simp only [Record.byteSize, alike]

theorem Sound.replace {position : Nat} {record : Record} {contents : Variable}
    (sound : store.Sound size capacity) (placed : store.records[position]? = some record)
    (packable : contents.Packable size) (family : contents.family = record.contents.family) :
    Left size capacity (Variables.replace position contents store) := by
  have old := sound.records record (List.mem_of_getElem? placed)
  have new : Record.Sound size ⟨record.name, contents⟩ :=
    ⟨old.named, fun array => old.arrayNamed (family ▸ array), packable⟩
  have used := sound.used_eq
  have within := sound.within
  have counted := bytesOf_eraseIdx size placed
  simp only [Variables.replace, Attempt.bind_apply, Attempt.get_apply, placed, resize,
    sound.size_eq, sound.capacity_eq]
  by_cases full : record.byteSize size < (⟨record.name, contents⟩ : Record).byteSize size ∧
      capacity < store.used + (⟨record.name, contents⟩ : Record).byteSize size -
        record.byteSize size
  · simp only [if_pos full]
    exact sound
  · simp only [if_neg full]
    refine ⟨trivial, ?_⟩
    have room : Variables.Sound size capacity
        { store with
          used := store.used + (⟨record.name, contents⟩ : Record).byteSize size -
            record.byteSize size
          records := store.records.modify position fun record => { record with contents } } :=
      sound.modify placed new (by omega) (by omega)
    rw [sound.size_eq, sound.capacity_eq] at room
    exact room

/-! ## The operations -/

theorem sustains_assignNumber {value : Int} (named : name.length ≤ maxNameLength)
    (fits : size.Fits value) : Sustained size capacity (assignNumber name value) := by
  intro store sound
  simp only [assignNumber, Attempt.bind_apply, Attempt.get_apply]
  cases found : store.position? name .numeric with
  | none =>
      have record : Record.Sound size ⟨name, .number value⟩ :=
        ⟨named, fun array => (by cases array), fits⟩
      exact sustains_append record store sound
  | some position =>
      obtain ⟨record, placed, isFor⟩ := position?_eq_some found
      have packable := (sound.records record (List.mem_of_getElem? placed)).packable
      refine sound.overwrite placed ?_ ?_ ?_
      all_goals
        rcases record with ⟨name, contents⟩
        cases contents with
        | number old => first | exact fits | rfl
        | loop old limit resume => first | exact ⟨fits, packable.2⟩ | rfl
        | array values => cases isFor
        | text codes => cases isFor

theorem sustains_assignText {codes : List Code} (named : name.length ≤ maxNameLength)
    (unquoted : Code.quote ∉ codes) : Sustained size capacity (assignText name codes) := by
  intro store sound
  simp only [assignText, Attempt.bind_apply, Attempt.get_apply]
  cases found : store.position? name .text with
  | none =>
      have record : Record.Sound size ⟨name, .text codes⟩ :=
        ⟨named, fun array => (by cases array), unquoted⟩
      exact sustains_append record store sound
  | some position =>
      obtain ⟨record, placed, isFor⟩ := position?_eq_some found
      refine sound.replace placed unquoted ?_
      rcases record with ⟨name, contents⟩
      cases contents <;> first | rfl | cases isFor

theorem sustains_assignElement {index value : Int} (fits : size.Fits value) :
    Sustained size capacity (assignElement name index value) := by
  intro store sound
  simp only [assignElement, Attempt.bind_apply, Attempt.get_apply]
  cases found : store.position? name .array with
  | none => exact sound
  | some position =>
      obtain ⟨record, placed, isFor⟩ := position?_eq_some found
      rw [get?_eq, found, Option.bind_some, placed, Option.map_some]
      have packable := (sound.records record (List.mem_of_getElem? placed)).packable
      rcases record with ⟨name, contents⟩
      cases contents with
      | array values =>
          dsimp only
          cases elementAt values index with
          | error fault => exact sound
          | ok place =>
              obtain ⟨nonempty, short, others⟩ := packable
              have packed : (Variable.array (values.set place value)).Packable size := by
                refine ⟨by simpa using nonempty, by simpa using short, fun other member => ?_⟩
                rcases List.mem_or_eq_of_mem_set member with old | rfl
                · exact others other old
                · exact fits
              change Left size capacity
                (Variables.overwrite position (fun _ => .array (values.set place value)) store)
              apply sound.overwrite placed packed rfl
              simp [Variable.payloadSize]
      | number old => cases isFor
      | loop old limit resume => cases isFor
      | text codes => cases isFor

theorem sustains_remove (position : Nat) : Sustained size capacity (remove position) := by
  intro store sound
  refine ⟨trivial, ?_⟩
  dsimp only
  split
  next => exact sound
  next record placed =>
    have bytes := bytesOf_eraseIdx size placed
    have used := sound.used_eq
    have within := sound.within
    rw [sound.size_eq]
    refine ⟨rfl, sound.capacity_eq, by dsimp only; omega, by dsimp only; omega, ?_⟩
    intro other member
    exact sound.records other (List.mem_of_mem_eraseIdx member)

theorem sustains_declareArray (name : Name) (maxIndex : Int) :
    Sustained size capacity (declareArray name maxIndex) := by
  unfold declareArray
  dsimp only
  split
  next => exact fun store sound => sound
  next inside =>
    split
    next => exact fun store sound => sound
    next short =>
      have bound : maxIndex.toNat + 1 ≤ 256 := by
        simp only [maxArrayIndex] at inside
        omega
      have record : Record.Sound size
          ⟨name, .array (List.replicate (maxIndex.toNat + 1) 0)⟩ := by
        refine ⟨by dsimp only; omega, fun _ => by dsimp only; omega, ?_, ?_, ?_⟩
        · exact List.cons_ne_nil _ _
        · rw [List.length_replicate]
          exact bound
        · intro value member
          rw [(List.mem_replicate.mp member).2]
          exact size.fits_zero
      apply Attempt.sustains_get.bind
      intro store _
      cases store.position? name .array with
      | none => exact sustains_append record
      | some position =>
          exact (sustains_remove position).bind fun _ _ => sustains_append record

theorem sustains_startLoop {limit : Int} {resume : Nat} (fits : size.Fits limit)
    (small : resume < 65536) : Sustained size capacity (startLoop name limit resume) := by
  intro store sound
  simp only [startLoop, Attempt.bind_apply, Attempt.get_apply]
  cases found : store.position? name .numeric with
  | none => exact sound
  | some position =>
      cases fetched : store.number name with
      | error fault => exact sound
      | ok value =>
          obtain ⟨record, placed, isFor⟩ := position?_eq_some found
          refine sound.replace placed ⟨sound.fits_number fetched, fits, small⟩ ?_
          rcases record with ⟨name, contents⟩
          cases contents <;> first | rfl | cases isFor

theorem sustains_stepLoop : Sustains (Variables.Sound size capacity) (stepLoop name)
    fun resume => ∀ line, resume = some line → line < 65536 := by
  intro store sound
  simp only [stepLoop, Attempt.bind_apply, Attempt.get_apply]
  cases found : store.position? name .numeric with
  | none => exact sound
  | some position =>
      obtain ⟨record, placed, isFor⟩ := position?_eq_some found
      rw [get?_eq, found, Option.bind_some, placed, Option.map_some]
      have packable := (sound.records record (List.mem_of_getElem? placed)).packable
      rcases record with ⟨name, contents⟩
      cases contents with
      | loop value limit resume =>
          obtain ⟨_, fits, small⟩ := packable
          cases counted : store.size.checked (value + 1) with
          | error fault =>
              simp only [Attempt.bind_apply, Attempt.ofExcept_apply, counted]
              exact sound
          | ok next =>
              have counts : size.Fits next := by
                rw [sound.size_eq] at counted
                exact WordSize.fits_of_checked counted
              have packed : (Variable.loop next limit resume).Packable size := ⟨counts, fits, small⟩
              have left : Left size capacity
                  (Variables.overwrite position (fun _ => .loop next limit resume) store) :=
                sound.overwrite placed packed rfl rfl
              simp only [Attempt.bind_apply, Attempt.ofExcept_apply, counted]
              refine ⟨fun line resumes => ?_, left.2⟩
              split at resumes
              · cases resumes
                exact small
              · cases resumes
      | number old => exact sound
      | array values => cases isFor
      | text codes => cases isFor

end Variables
end HomeBasic
