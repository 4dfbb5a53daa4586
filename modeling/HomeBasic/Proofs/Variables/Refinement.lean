import HomeBasic.Proofs.Variables.Contents

/-!
# The variable store is a finite map

Everything that changes a variable store changes its map at one key (`Change`). What it
leaves there only depends on what was there before (`Change.outcome`), and a change that
is not refused for that runs out of memory exactly when the packing of the changed map
has no room (`Contents.change`).

Main statements: a change of a store is that change of its map (`Represents.perform`), so
a store that started empty is a map after any operations, accounted for to the byte
(`represents_operated`).
-/

namespace HomeBasic
namespace Variables

/-! ## Changes of a map -/

/-- What changes the variable of one key. -/
inductive Change where
  | assignNumber (name : Name) (value : Int)
  | assignText (name : Name) (codes : List Code)
  | assignElement (name : Name) (index value : Int)
  | declareArray (name : Name) (maxIndex : Int)
  | startLoop (name : Name) (limit : Int) (resume : Nat)
  | stepLoop (name : Name)

namespace Change

/-- The key whose variable is changed. -/
def key : Change → Key
  | assignNumber name _ | startLoop name _ _ | stepLoop name => (name, .numeric)
  | assignText name _ => (name, .text)
  | assignElement name _ _ | declareArray name _ => (name, .array)

/-- What stands at the key afterwards, or the fault for which the change is refused. -/
def outcome (size : WordSize) : Change → Option Variable → Except Fault Variable
  | assignNumber _ value, some (.loop _ limit resume) => .ok (.loop value limit resume)
  | assignNumber _ value, _ => .ok (.number value)
  | assignText _ codes, _ => .ok (.text codes)
  | assignElement _ index value, some (.array values) =>
      if 0 ≤ index ∧ index < values.length then
        .ok (.array (values.set index.toNat value))
      else
        .error .subscriptOutOfRange
  | assignElement .., _ => .error .variableNotFound
  | declareArray name maxIndex, _ =>
      if maxIndex < 0 ∨ maxArrayIndex < maxIndex then
        .error .subscriptOutOfRange
      else if maxNameLength ≤ name.length then
        .error .syntaxError
      else
        .ok (.array (List.replicate (maxIndex.toNat + 1) 0))
  | startLoop _ limit resume, some (.number value)
  | startLoop _ limit resume, some (.loop value _ _) => .ok (.loop value limit resume)
  | startLoop .., _ => .error .variableNotFound
  | stepLoop _, some (.loop value limit resume) =>
      (size.checked (value + 1)).map fun next => .loop next limit resume
  | stepLoop _, _ => .error .nextWithoutFor

/-- What a change answers: the line to resume at while the limit of a loop is not passed. -/
def answer : Change → Variable → Option Nat
  | stepLoop _, .loop value limit resume => if value ≤ limit then some resume else none
  | _, _ => none

/-- What a change without room leaves; an array that is declared anew is gone by then. -/
def unfinished (change : Change) (contents : Contents) : Contents :=
  match change with
  | declareArray .. => contents.erase change.key
  | _ => contents

/-- Carries a change out in a store. -/
def perform : Change → Attempt Variables (Option Nat)
  | assignNumber name value => Variables.assignNumber name value >>= fun _ => pure none
  | assignText name codes => Variables.assignText name codes >>= fun _ => pure none
  | assignElement name index value =>
      Variables.assignElement name index value >>= fun _ => pure none
  | declareArray name maxIndex => Variables.declareArray name maxIndex >>= fun _ => pure none
  | startLoop name limit resume => Variables.startLoop name limit resume >>= fun _ => pure none
  | stepLoop name => Variables.stepLoop name

end Change

/-- A change of a map, with so much room for its packing. -/
def Contents.change (size : WordSize) (capacity : Nat) (change : Change) (contents : Contents) :
    Except Fault (Option Nat) × Contents :=
  match change.outcome size (contents.lookup change.key) with
  | .error fault => (.error fault, contents)
  | .ok held =>
      if packedSize size (contents.insert change.key held) ≤ capacity then
        (.ok (change.answer held), contents.insert change.key held)
      else
        (.error .outOfMemory, change.unfinished contents)

/-! ## Stores of a map -/

/-- A store holds a map, each variable once, and accounts for its bytes. -/
structure Represents (size : WordSize) (capacity : Nat) (store : Variables)
    (contents : Contents) : Prop where
  size_eq : store.size = size
  capacity_eq : store.capacity = capacity
  get? : ∀ name family, store.get? name family = contents.lookup (name, family)
  distinct : (store.records.map Record.key).Nodup
  used_eq : store.used = store.encode.length
  packed : store.used = packedSize size contents
  within : store.used ≤ capacity

variable {size : WordSize} {capacity : Nat} {store : Variables} {contents : Contents}
variable {name : Name} {family : Family}

/-- A store without double names that accounts for its records represents what it holds. -/
theorem represents_contents (size_eq : store.size = size) (capacity_eq : store.capacity = capacity)
    (distinct : (store.records.map Record.key).Nodup)
    (used : store.used = bytesOf size store.records + 1) (within : store.used ≤ capacity) :
    store.Represents size capacity store.contents where
  size_eq := size_eq
  capacity_eq := capacity_eq
  get? name family := (lookup_contents store name family).symm
  distinct := distinct
  used_eq := by rw [length_encode, size_eq, used]
  packed := used.trans (packedSize_table size distinct).symm
  within := within

theorem represents_empty (room : 1 ≤ capacity) :
    (empty size capacity).Represents size capacity ∅ :=
  represents_contents rfl rfl .nil rfl room

namespace Represents

theorem contents_eq (represents : store.Represents size capacity contents) :
    store.contents = contents :=
  Finmap.ext_lookup fun (name, family) =>
    (lookup_contents store name family).trans (represents.get? name family)

theorem used (represents : store.Represents size capacity contents) :
    store.used = bytesOf size store.records + 1 := by
  rw [represents.used_eq, length_encode, represents.size_eq]

theorem clear (represents : store.Represents size capacity contents) :
    store.clear.Represents size capacity ∅ := by
  have used := represents.used
  have within := represents.within
  rw [Variables.clear, represents.size_eq, represents.capacity_eq]
  exact represents_empty (by omega)

end Represents

/-- What a step makes of a store is what was made of its map. -/
def Mirrors {α : Type} (size : WordSize) (capacity : Nat) (result : Except Fault α × Variables)
    (expected : Except Fault α × Contents) : Prop :=
  result.1 = expected.1 ∧ result.2.Represents size capacity expected.2

/-- A variable is put at a key, if there is room for the packing. -/
def Contents.put (size : WordSize) (capacity : Nat) (key : Key) (held : Variable)
    (contents : Contents) : Except Fault Unit × Contents :=
  if packedSize size (contents.insert key held) ≤ capacity then
    (.ok (), contents.insert key held)
  else
    (.error .outOfMemory, contents)

/-- A step that would leave a store of the changed map, and fails exactly without the room. -/
theorem mirrors_put {key : Key} {held : Variable} {result : Except Fault Unit × Variables}
    (changed : Variables)
    (represents : store.Represents size capacity contents)
    (size_eq : changed.size = size) (capacity_eq : changed.capacity = capacity)
    (distinct : (changed.records.map Record.key).Nodup)
    (used : changed.used = bytesOf size changed.records + 1)
    (holds : changed.contents = contents.insert key held)
    (run : result =
      if changed.used ≤ capacity then (.ok (), changed) else (.error .outOfMemory, store)) :
    Mirrors size capacity result (contents.put size capacity key held) := by
  have packed : packedSize size (contents.insert key held) = changed.used := by
    rw [← holds, used]
    exact packedSize_table size distinct
  rw [run, Contents.put, packed]
  split
  next room =>
    refine ⟨rfl, ?_⟩
    rw [← holds]
    exact represents_contents size_eq capacity_eq distinct used room
  next => exact ⟨rfl, represents⟩

namespace Represents

/-- A variable of a new name is put at its key. -/
theorem append (represents : store.Represents size capacity contents) (held : Variable)
    (absent : store.position? name held.family = none) :
    Mirrors size capacity (Variables.append name held store)
      (contents.put size capacity (name, held.family) held) := by
  have used := represents.used
  have fresh : (name, held.family) ∉ store.records.map Record.key := by
    intro member
    obtain ⟨record, here, same⟩ := List.mem_map.mp member
    have other := List.findIdx?_eq_none_iff.mp absent record here
    exact Record.key_ne other same
  refine mirrors_put { store with
      used := store.used + (⟨name, held⟩ : Record).byteSize store.size
      records := store.records ++ [⟨name, held⟩] }
    represents represents.size_eq represents.capacity_eq ?_ ?_ ?_ ?_
  · rw [List.map_append, List.map_singleton, ← List.concat_eq_append]
    exact represents.distinct.concat fresh
  · dsimp only
    rw [bytesOf_append, used, represents.size_eq]
    omega
  · rw [← represents.contents_eq]
    exact table_append ⟨name, held⟩ fresh
  · rw [append_apply, represents.capacity_eq, ← ite_not]
    simp only [Nat.not_lt]

/-- A change of the contents of a record leaves its key. -/
theorem map_key_modify {records : List Record} {position : Nat} {old : Record}
    {change : Variable → Variable} (placed : records[position]? = some old)
    (kept : (change old.contents).family = old.contents.family) :
    (records.modify position fun record =>
      { record with contents := change record.contents }).map Record.key =
        records.map Record.key := by
  induction records generalizing position with
  | nil => cases placed
  | cons first records inductionHypothesis =>
      cases position with
      | zero =>
          cases placed
          rw [List.modify_zero_cons, List.map_cons, List.map_cons]
          exact congrArg (· :: _) (congrArg (Prod.mk old.name) kept)
      | succ position =>
          rw [List.modify_succ_cons, List.map_cons, List.map_cons, inductionHypothesis placed]

theorem isFor_of_position? {position : Nat} {record : Record}
    (found : store.position? name family = some position)
    (placed : store.records[position]? = some record) : record.isFor name family = true := by
  obtain ⟨other, here, isFor⟩ := position?_eq_some found
  rw [placed] at here
  cases here
  exact isFor

/-- The variable at a key is changed, if there is room for what it takes then. -/
theorem modify {position : Nat} {record : Record} {result : Except Fault Unit × Variables}
    (represents : store.Represents size capacity contents)
    (found : store.position? name family = some position)
    (placed : store.records[position]? = some record) (change : Variable → Variable) (used : Nat)
    (kept : (change record.contents).family = family)
    (accounted : used + record.byteSize size =
      store.used + (⟨record.name, change record.contents⟩ : Record).byteSize size)
    (run : result =
      if used ≤ capacity then
        (.ok (), { store with
          used
          records := store.records.modify position fun record =>
            { record with contents := change record.contents } })
      else
        (.error .outOfMemory, store)) :
    Mirrors size capacity result
      (contents.put size capacity (name, family) (change record.contents)) := by
  have isFor := isFor_of_position? found placed
  have same : (change record.contents).family = record.contents.family :=
    kept.trans (congrArg Prod.snd (Record.isFor_iff.mp isFor)).symm
  have bytes := bytesOf_modify size placed fun record =>
    { record with contents := change record.contents }
  have before := represents.used
  refine mirrors_put { store with
      used
      records := store.records.modify position fun record =>
        { record with contents := change record.contents } }
    represents represents.size_eq represents.capacity_eq ?_ ?_ ?_ run
  · dsimp only
    rw [map_key_modify placed same]
    exact represents.distinct
  · dsimp only at bytes ⊢
    omega
  · rw [← represents.contents_eq]
    exact table_modify found placed kept

/-- The variable at a key is replaced, if there is room for what it takes then. -/
theorem replace {position : Nat} (represents : store.Represents size capacity contents)
    (held : Variable) (found : store.position? name held.family = some position) :
    Mirrors size capacity (Variables.replace position held store)
      (contents.put size capacity (name, held.family) held) := by
  obtain ⟨record, placed, _⟩ := position?_eq_some found
  have used := represents.used
  have within := represents.within
  have bytes := bytesOf_eraseIdx size placed
  refine represents.modify found placed (fun _ => held) (store.used +
    (⟨record.name, held⟩ : Record).byteSize size - record.byteSize size) rfl ?_ ?_
  · omega
  · simp only [Variables.replace, Attempt.bind_apply, Attempt.get_apply, placed, resize,
      represents.capacity_eq, represents.size_eq]
    by_cases full : record.byteSize size < (⟨record.name, held⟩ : Record).byteSize size ∧
        capacity < store.used + (⟨record.name, held⟩ : Record).byteSize size -
          record.byteSize size
    · rw [if_pos full, if_neg (Nat.not_le.mpr full.2)]
    · rw [if_neg full, if_pos (by omega)]
      rfl

/-- Contents of the same size take the place of others, and there is room for them. -/
theorem overwrite {position : Nat} {record : Record}
    (represents : store.Represents size capacity contents) (change : Variable → Variable)
    (found : store.position? name family = some position)
    (placed : store.records[position]? = some record)
    (kept : (change record.contents).family = family)
    (alike : (change record.contents).payloadSize size = record.contents.payloadSize size) :
    Mirrors size capacity (Variables.overwrite position change store)
      (contents.put size capacity (name, family) (change record.contents)) := by
  refine represents.modify found placed change store.used kept ?_ ?_
  · simp only [Record.byteSize, alike]
  · rw [if_pos represents.within]
    rfl

/-- The array at a key is taken away. -/
theorem remove {position : Nat} (represents : store.Represents size capacity contents)
    (found : store.position? name family = some position) :
    Mirrors size capacity (Variables.remove position store)
      (.ok (), contents.erase (name, family)) := by
  obtain ⟨record, placed, isFor⟩ := position?_eq_some found
  have used := represents.used
  have within := represents.within
  have bytes := bytesOf_eraseIdx size placed
  refine ⟨rfl, ?_⟩
  have erased : (Variables.remove position store).2 = { store with
      records := store.records.eraseIdx position
      used := store.used - record.byteSize size } := by
    simp only [Variables.remove, Attempt.modify_apply, placed, represents.size_eq]
  have holds : (Variables.remove position store).2.contents = contents.erase (name, family) := by
    rw [erased, ← represents.contents_eq]
    exact table_eraseIdx represents.distinct found
  rw [← holds, erased]
  refine represents_contents represents.size_eq represents.capacity_eq ?_ ?_ ?_
  · exact represents.distinct.sublist ((List.eraseIdx_sublist _ _).map _)
  · dsimp only
    omega
  · dsimp only
    omega

theorem lookup_eq_none (represents : store.Represents size capacity contents)
    (absent : store.position? name family = none) : contents.lookup (name, family) = none := by
  rw [← represents.get?, get?_eq, absent, Option.bind_none]

theorem lookup_eq_some {position : Nat} {record : Record}
    (represents : store.Represents size capacity contents)
    (found : store.position? name family = some position)
    (placed : store.records[position]? = some record) :
    contents.lookup (name, family) = some record.contents := by
  rw [← represents.get?, get?_eq, found, Option.bind_some, placed, Option.map_some]

end Represents

/-! ## Changes of a store -/

/-- A change that is refused leaves the store and the map as they are. -/
theorem Represents.refused (represents : store.Represents size capacity contents)
    (change : Change) (fault : Fault)
    (run : change.perform store = (.error fault, store))
    (outcome : change.outcome size (contents.lookup change.key) = .error fault) :
    Mirrors size capacity (change.perform store) (contents.change size capacity change) := by
  rw [run, Contents.change, outcome]
  exact ⟨rfl, represents⟩

/-- A change that puts a variable at its key is that change of the map. -/
theorem Mirrors.change {base : Contents} {held : Variable}
    {result : Except Fault Unit × Variables} (change : Change)
    (mirrors : Mirrors size capacity result (base.put size capacity change.key held))
    (run : change.perform store = (result.1.map fun _ => change.answer held, result.2))
    (outcome : change.outcome size (contents.lookup change.key) = .ok held)
    (unfinished : change.unfinished contents = base)
    (same : base.insert change.key held = contents.insert change.key held) :
    Mirrors size capacity (change.perform store) (contents.change size capacity change) := by
  obtain ⟨alike, represents⟩ := mirrors
  rw [run, Contents.change, outcome, unfinished]
  simp only [Contents.put, same] at alike represents ⊢
  split at alike
  next room =>
    rw [if_pos room] at represents
    rw [if_pos room]
    exact ⟨by rw [alike]; rfl, represents⟩
  next full =>
    rw [if_neg full] at represents
    rw [if_neg full]
    exact ⟨by rw [alike]; rfl, represents⟩

namespace Represents

theorem bind_none_apply (step : Attempt Variables Unit) (store : Variables) :
    (step >>= fun _ => pure (none : Option Nat)) store =
      ((step store).1.map fun _ => none, (step store).2) := by
  rw [Attempt.bind_apply]
  rcases step store with ⟨_ | _, _⟩ <;> rfl

theorem assignNumber (represents : store.Represents size capacity contents) (value : Int) :
    Mirrors size capacity ((Change.assignNumber name value).perform store)
      (contents.change size capacity (.assignNumber name value)) := by
  cases found : store.position? name .numeric with
  | none =>
      have step : Variables.assignNumber name value store =
          Variables.append name (.number value) store := by
        simp only [Variables.assignNumber, Attempt.bind_apply, Attempt.get_apply, found]
      refine (represents.append (.number value) found).change
        (.assignNumber name value) ?_ ?_ rfl rfl
      · rw [Change.perform, bind_none_apply, step]
        rfl
      · rw [Change.key, represents.lookup_eq_none found]
        rfl
  | some position =>
      obtain ⟨record, placed, isFor⟩ := position?_eq_some found
      have held := represents.lookup_eq_some found placed
      have step : Variables.assignNumber name value store =
          Variables.overwrite position (Variable.assigned value) store := by
        simp only [Variables.assignNumber, Attempt.bind_apply, Attempt.get_apply, found]
        rfl
      rcases record with ⟨other, old⟩
      cases old with
      | number old | loop old limit resume =>
          have mirrors := represents.overwrite (Variable.assigned value) found placed rfl rfl
          refine mirrors.change (.assignNumber name value) ?_ ?_ rfl rfl
          · rw [Change.perform, bind_none_apply, step]
            rfl
          · rw [Change.key, held]
            rfl
      | array values => cases isFor
      | text codes => cases isFor

theorem assignText (represents : store.Represents size capacity contents) (codes : List Code) :
    Mirrors size capacity ((Change.assignText name codes).perform store)
      (contents.change size capacity (.assignText name codes)) := by
  cases found : store.position? name .text with
  | none =>
      have step : Variables.assignText name codes store =
          Variables.append name (.text codes) store := by
        simp only [Variables.assignText, Attempt.bind_apply, Attempt.get_apply, found]
      refine (represents.append (.text codes) found).change (.assignText name codes) ?_ rfl rfl rfl
      rw [Change.perform, bind_none_apply, step]
      rfl
  | some position =>
      have step : Variables.assignText name codes store =
          Variables.replace position (.text codes) store := by
        simp only [Variables.assignText, Attempt.bind_apply, Attempt.get_apply, found]
      refine (represents.replace (.text codes) found).change (.assignText name codes) ?_ rfl rfl rfl
      rw [Change.perform, bind_none_apply, step]
      rfl

theorem assignElement (represents : store.Represents size capacity contents)
    (index value : Int) :
    Mirrors size capacity ((Change.assignElement name index value).perform store)
      (contents.change size capacity (.assignElement name index value)) := by
  cases found : store.position? name .array with
  | none =>
      have held := represents.lookup_eq_none found
      refine represents.refused (.assignElement name index value) .variableNotFound ?_ ?_
      · simp only [Change.perform, Variables.assignElement, Attempt.bind_apply,
          Attempt.get_apply, found]
        rfl
      · rw [Change.key, held]
        rfl
  | some position =>
      obtain ⟨record, placed, isFor⟩ := position?_eq_some found
      have held := represents.lookup_eq_some found placed
      have fetched := (represents.get? name .array).trans held
      rcases record with ⟨other, old⟩
      cases old with
      | array values =>
          by_cases inside : 0 ≤ index ∧ index < values.length
          · have step : Variables.assignElement name index value store =
                Variables.overwrite position
                  (fun _ => .array (values.set index.toNat value)) store := by
              simp only [Variables.assignElement, Attempt.bind_apply, Attempt.get_apply, found,
                fetched, Attempt.ofExcept_apply, elementAt, if_pos inside]
            have mirrors := represents.overwrite (fun _ => .array (values.set index.toNat value))
              found placed rfl (by simp [Variable.payloadSize])
            refine mirrors.change (.assignElement name index value) ?_ ?_ rfl rfl
            · rw [Change.perform, bind_none_apply, step]
              rfl
            · rw [Change.key, held]
              exact if_pos inside
          · refine represents.refused (.assignElement name index value) .subscriptOutOfRange ?_ ?_
            · simp only [Change.perform, Variables.assignElement,
                Attempt.bind_apply, Attempt.get_apply, found, fetched, Attempt.ofExcept_apply,
                elementAt, if_neg inside]
            · rw [Change.key, held]
              exact if_neg inside
      | number old => cases isFor
      | loop old limit resume => cases isFor
      | text codes => cases isFor

theorem position?_eq_none (represents : store.Represents size capacity contents)
    (absent : contents.lookup (name, family) = none) : store.position? name family = none := by
  rw [← represents.get?, Variables.get?, Option.map_eq_none_iff, List.find?_eq_none] at absent
  exact List.findIdx?_eq_none_iff.mpr fun record member =>
    Bool.eq_false_iff.mpr (absent record member)

theorem declareArray (represents : store.Represents size capacity contents) (maxIndex : Int) :
    Mirrors size capacity ((Change.declareArray name maxIndex).perform store)
      (contents.change size capacity (.declareArray name maxIndex)) := by
  by_cases outside : maxIndex < 0 ∨ maxArrayIndex < maxIndex
  · refine represents.refused (.declareArray name maxIndex) .subscriptOutOfRange ?_ ?_
    · rw [Change.perform, bind_none_apply, Variables.declareArray, if_pos outside]
      rfl
    · exact if_pos outside
  · by_cases long : maxNameLength ≤ name.length
    · refine represents.refused (.declareArray name maxIndex) .syntaxError ?_ ?_
      · rw [Change.perform, bind_none_apply, Variables.declareArray, if_neg outside, if_pos long]
        rfl
      · exact (if_neg outside).trans (if_pos long)
    · have outcome : (Change.declareArray name maxIndex).outcome size
          (contents.lookup (name, .array)) =
            .ok (.array (List.replicate (maxIndex.toNat + 1) 0)) :=
        (if_neg outside).trans (if_neg long)
      cases found : store.position? name .array with
      | none =>
          have step : Variables.declareArray name maxIndex store =
              Variables.append name (.array (List.replicate (maxIndex.toNat + 1) 0)) store := by
            simp only [Variables.declareArray, if_neg outside, if_neg long, Attempt.bind_apply,
              Attempt.get_apply, found]
          refine (represents.append (.array (List.replicate (maxIndex.toNat + 1) 0)) found).change
            (.declareArray name maxIndex) ?_ outcome ?_ rfl
          · rw [Change.perform, bind_none_apply, step]
            rfl
          · exact erase_of_lookup_eq_none (represents.lookup_eq_none found)
      | some position =>
          have removed := (represents.remove found).2
          have step : Variables.declareArray name maxIndex store =
              Variables.append name (.array (List.replicate (maxIndex.toNat + 1) 0))
                (Variables.remove position store).2 := by
            simp only [Variables.declareArray, if_neg outside, if_neg long, Attempt.bind_apply,
              Attempt.get_apply, found]
            rfl
          refine (removed.append (.array (List.replicate (maxIndex.toNat + 1) 0)) ?_).change
            (.declareArray name maxIndex) ?_ outcome rfl ?_
          · exact removed.position?_eq_none (Finmap.lookup_erase _ _)
          · rw [Change.perform, bind_none_apply, step]
            rfl
          · exact insert_erase_self

theorem startLoop (represents : store.Represents size capacity contents) (limit : Int)
    (resume : Nat) :
    Mirrors size capacity ((Change.startLoop name limit resume).perform store)
      (contents.change size capacity (.startLoop name limit resume)) := by
  cases found : store.position? name .numeric with
  | none =>
      refine represents.refused (.startLoop name limit resume) .variableNotFound ?_ ?_
      · simp only [Change.perform, Variables.startLoop, Attempt.bind_apply, Attempt.get_apply,
          found]
        rfl
      · rw [Change.key, represents.lookup_eq_none found]
        rfl
  | some position =>
      obtain ⟨record, placed, isFor⟩ := position?_eq_some found
      have held := represents.lookup_eq_some found placed
      have fetched := (represents.get? name .numeric).trans held
      have starts : ∀ value, store.number name = .ok value →
          Variables.startLoop name limit resume store =
            Variables.replace position (.loop value limit resume) store := by
        intro value number
        simp only [Variables.startLoop, Attempt.bind_apply, Attempt.get_apply, found, number]
      rcases record with ⟨other, old⟩
      cases old with
      | number value | loop value _ _ =>
          have step := starts value (by rw [Variables.number, fetched])
          refine (represents.replace (.loop value limit resume) found).change
            (.startLoop name limit resume) ?_ ?_ rfl rfl
          · rw [Change.perform, bind_none_apply, step]
            rfl
          · rw [Change.key, held]
            rfl
      | array values => cases isFor
      | text codes => cases isFor

theorem stepLoop (represents : store.Represents size capacity contents) :
    Mirrors size capacity ((Change.stepLoop name).perform store)
      (contents.change size capacity (.stepLoop name)) := by
  cases found : store.position? name .numeric with
  | none =>
      refine represents.refused (.stepLoop name) .nextWithoutFor ?_ ?_
      · simp only [Change.perform, Variables.stepLoop, Attempt.bind_apply, Attempt.get_apply,
          found]
        rfl
      · rw [Change.key, represents.lookup_eq_none found]
        rfl
  | some position =>
      obtain ⟨record, placed, isFor⟩ := position?_eq_some found
      have held := represents.lookup_eq_some found placed
      have fetched := (represents.get? name .numeric).trans held
      rcases record with ⟨other, old⟩
      cases old with
      | loop value limit resume =>
          cases counted : size.checked (value + 1) with
          | error fault =>
              refine represents.refused (.stepLoop name) fault ?_ ?_
              · simp only [Change.perform, Variables.stepLoop, Attempt.bind_apply,
                  Attempt.get_apply, Attempt.ofExcept_apply, found, fetched, represents.size_eq,
                  counted]
              · rw [Change.key, held, Change.outcome, counted]
                rfl
          | ok next =>
              have mirrors := represents.overwrite (fun _ => .loop next limit resume)
                found placed rfl rfl
              refine mirrors.change (.stepLoop name) ?_ ?_ rfl rfl
              · simp only [Change.perform, Variables.stepLoop, Attempt.bind_apply,
                  Attempt.get_apply, Attempt.ofExcept_apply, found, fetched, represents.size_eq,
                  counted]
                rfl
              · rw [Change.key, held, Change.outcome, counted]
                rfl
      | number value =>
          refine represents.refused (.stepLoop name) .nextWithoutFor ?_ ?_
          · simp only [Change.perform, Variables.stepLoop, Attempt.bind_apply, Attempt.get_apply,
              found, fetched]
            rfl
          · rw [Change.key, held]
            rfl
      | array values => cases isFor
      | text codes => cases isFor

/-- A change of a store is that change of its map. -/
theorem perform (represents : store.Represents size capacity contents) (change : Change) :
    Mirrors size capacity (change.perform store) (contents.change size capacity change) := by
  cases change with
  | assignNumber name value => exact represents.assignNumber value
  | assignText name codes => exact represents.assignText codes
  | assignElement name index value => exact represents.assignElement index value
  | declareArray name maxIndex => exact represents.declareArray maxIndex
  | startLoop name limit resume => exact represents.startLoop limit resume
  | stepLoop name => exact represents.stepLoop

end Represents

/-! ## Operations -/

/-- What changes a store: one of its variables, or all of them go. -/
inductive Operation where
  | change (change : Change)
  | clear

/-- The store after an operation, whether it was refused or not. -/
def operate (store : Variables) : Operation → Variables
  | .change change => (change.perform store).2
  | .clear => store.clear

/-- The map after an operation, with so much room for its packing. -/
def Contents.operate (size : WordSize) (capacity : Nat) (contents : Contents) :
    Operation → Contents
  | .change change => (contents.change size capacity change).2
  | .clear => ∅

namespace Represents

/-- An operation of a store is that operation of its map. -/
theorem operate (represents : store.Represents size capacity contents) (operation : Operation) :
    (store.operate operation).Represents size capacity
      (contents.operate size capacity operation) := by
  cases operation with
  | change change => exact (represents.perform change).2
  | clear => exact represents.clear

/-- Operations of a store one after the other are those operations of its map. -/
theorem operated (represents : store.Represents size capacity contents)
    (operations : List Operation) :
    (operations.foldl Variables.operate store).Represents size capacity
      (operations.foldl (Contents.operate size capacity) contents) := by
  induction operations generalizing store contents with
  | nil => exact represents
  | cons operation operations inductionHypothesis =>
      exact inductionHypothesis (represents.operate operation)

/-- A change that is not refused runs out of memory exactly when its outcome has no room. -/
theorem perform_outOfMemory_iff (represents : store.Represents size capacity contents)
    {change : Change} {held : Variable}
    (outcome : change.outcome size (contents.lookup change.key) = .ok held) :
    (change.perform store).1 = .error .outOfMemory ↔
      capacity < packedSize size (contents.insert change.key held) := by
  rw [(represents.perform change).1, Contents.change, outcome]
  dsimp only
  split
  next room => simpa using room
  next full => simpa using full

/-- A change that ends well leaves its outcome at its key, and nothing else is changed. -/
theorem get?_perform (represents : store.Represents size capacity contents) {change : Change}
    {answer : Option Nat} (run : (change.perform store).1 = .ok answer) :
    ∃ held, change.outcome size (contents.lookup change.key) = .ok held ∧
      answer = change.answer held ∧
      ∀ name family, (change.perform store).2.get? name family =
        if (name, family) = change.key then some held else store.get? name family := by
  obtain ⟨alike, after⟩ := represents.perform change
  rw [alike] at run
  simp only [Contents.change] at run after
  cases outcome : change.outcome size (contents.lookup change.key) with
  | error fault =>
      rw [outcome] at run
      cases run
  | ok held =>
      rw [outcome] at run after
      dsimp only at run after
      split at run
      next room =>
        cases run
        rw [if_pos room] at after
        refine ⟨held, rfl, rfl, fun name family => ?_⟩
        rw [after.get?, represents.get?]
        split
        next same => rw [same, Finmap.lookup_insert]
        next different => rw [Finmap.lookup_insert_of_ne _ different]
      next => cases run

end Represents

/--
A store that started empty is a map after any operations, accounted for to the byte; what
it does next follows from the map.
-/
theorem represents_operated {size : WordSize} {capacity : Nat} (room : 1 ≤ capacity)
    (operations : List Operation) :
    let store := operations.foldl operate (empty size capacity)
    let contents := operations.foldl (Contents.operate size capacity) ∅
    store.Represents size capacity contents ∧
      ∀ change : Change,
        Mirrors size capacity (change.perform store) (contents.change size capacity change) ∧
        (∀ held, change.outcome size (contents.lookup change.key) = .ok held →
          ((change.perform store).1 = .error .outOfMemory ↔
            capacity < packedSize size (contents.insert change.key held))) ∧
        ∀ answer, (change.perform store).1 = .ok answer →
          ∃ held, change.outcome size (contents.lookup change.key) = .ok held ∧
            answer = change.answer held ∧
            ∀ name family, (change.perform store).2.get? name family =
              if (name, family) = change.key then some held else store.get? name family := by
  have represents := (@represents_empty size capacity room).operated operations
  refine ⟨represents, fun change => ⟨represents.perform change, ?_, ?_⟩⟩
  · intro held outcome
    exact represents.perform_outOfMemory_iff outcome
  · intro answer run
    exact represents.get?_perform run

/-- A loop variable is assigned to, and an array is declared anew where there is no room for it. -/
theorem represents_operated_loop :
    let name : Name := [0x21]
    let operations : List Operation :=
      [.change (.assignNumber name 1), .change (.startLoop name 9 20),
        .change (.assignNumber name 5), .change (.declareArray name 1),
        .change (.declareArray name 9)]
    1 ≤ 20 ∧
      (operations.foldl operate (empty .short 20)).records = [⟨name, .loop 5 9 20⟩] ∧
      (operations.foldl operate (empty .short 20)).Represents .short 20
        (operations.foldl (Contents.operate .short 20) ∅) := by
  refine ⟨by decide, rfl, ?_⟩
  exact (represents_operated (by decide) _).1

end Variables
end HomeBasic
