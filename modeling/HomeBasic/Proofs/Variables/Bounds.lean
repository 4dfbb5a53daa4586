import HomeBasic.Proofs.Checked
import HomeBasic.Proofs.Variables.Sound

/-!
# Bounds of a variable store

A store takes what a record gives up off the bytes in use, and finds its records and the
elements of its arrays by their places. With all of this checked it still does what it
does, as long as it accounts for its records (`Counted`), which it never ceases to do.

Main statements: looking up (`checkedGet_eq`, `Counted.checkedElement`), packing
(`Counted.checkedEncode`), and every change (`succeeds_assignNumber`, …, `succeeds_stepLoop`).
-/

namespace HomeBasic
namespace Variables

open Checked
open Trial (Succeeds)

variable {store : Variables} {name : Name} {family : Family} {position : Nat} {record : Record}

/-! ## With everything checked -/

/-- The variable of a name in a family, found by its place. -/
def checkedGet (store : Variables) (name : Name) (family : Family) : Option (Option Variable) :=
  match store.position? name family with
  | none => some none
  | some position => do
      let record ← store.records[position]?
      return some record.contents

/-- The element at an index of the array of a name. -/
def checkedElement (store : Variables) (name : Name) (index : Int) : Option (Except Fault Int) := do
  match ← store.checkedGet name .array with
  | some (.array values) =>
      match elementAt values index with
      | .ok place => return .ok (← values[place]?)
      | .error fault => return .error fault
  | _ => return .error .variableNotFound

/-- The contents as they are packed. -/
def checkedPayload (size : WordSize) : Variable → Option (List Code)
  | .array values => do
      let maxIndex ← difference? values.length 1
      return UInt8.ofNat maxIndex :: values.flatMap size.toBytes
  | contents => some (contents.payload size)

/-- Records as they are packed. -/
def checkedPack (size : WordSize) : List Record → Option (List Code)
  | [] => some []
  | record :: rest => do
      let payload ← checkedPayload size record.contents
      return record.header :: record.name ++ payload ++ (← checkedPack size rest)

/-- The store as it is packed, its end included. -/
def checkedEncode (store : Variables) : Option (List Code) := do
  return (← checkedPack store.size store.records) ++ [terminator]

/-- Accounts for something that took `old` bytes and now takes `new`. -/
def checkedResize (old new : Nat) : Trial Variables Unit := do
  let store ← get
  if old < new then
    let more ← difference? new old
    if store.capacity < store.used + more then
      throw .outOfMemory
    else
      set { store with used := store.used + more }
  else
    let fewer ← difference? old new
    let used ← difference? store.used fewer
    set { store with used }

/-- Adds a record behind the others. -/
def checkedAppend (name : Name) (contents : Variable) : Trial Variables Unit := do
  let record : Record := ⟨name, contents⟩
  checkedResize 0 (record.byteSize (← get).size)
  modify fun store => { store with records := store.records ++ [record] }

/-- Changes the contents of a record without changing its size. -/
def checkedOverwrite (position : Nat) (change : Variable → Variable) : Trial Variables Unit := do
  let _ ← (← get).records[position]?
  Trial.ofAttempt (overwrite position change)

/-- Puts a variable in place of another of the same name. -/
def checkedReplace (position : Nat) (contents : Variable) : Trial Variables Unit := do
  let store ← get
  let record ← store.records[position]?
  let old := record.byteSize store.size
  let others ← difference? old (record.contents.payloadSize store.size)
  checkedResize old (others + contents.payloadSize store.size)
  checkedOverwrite position fun _ => contents

/-- Takes a record away. -/
def checkedRemove (position : Nat) : Trial Variables Unit := do
  let store ← get
  let record ← store.records[position]?
  let used ← difference? store.used (record.byteSize store.size)
  set { store with records := store.records.eraseIdx position, used }

/-- Gives a number a value; a loop variable keeps its loop. -/
def checkedAssignNumber (name : Name) (value : Int) : Trial Variables Unit := do
  match (← get).position? name .numeric with
  | none => checkedAppend name (.number value)
  | some position =>
      checkedOverwrite position fun
        | .loop _ limit resume => .loop value limit resume
        | _ => .number value

/-- Gives a text a value. -/
def checkedAssignText (name : Name) (codes : List Code) : Trial Variables Unit := do
  match (← get).position? name .text with
  | none => checkedAppend name (.text codes)
  | some position => checkedReplace position (.text codes)

/-- Gives an element of an array a value. -/
def checkedAssignElement (name : Name) (index value : Int) : Trial Variables Unit := do
  let store ← get
  match store.position? name .array, ← store.checkedGet name .array with
  | some position, some (.array values) =>
      let place ← Trial.ofAttempt (Attempt.ofExcept (elementAt values index))
      let _ ← values[place]?
      checkedOverwrite position fun _ => .array (values.set place value)
  | _, _ => throw .variableNotFound

/-- Makes an array of zeros with a highest index, in place of any of the same name. -/
def checkedDeclareArray (name : Name) (maxIndex : Int) : Trial Variables Unit := do
  if maxIndex < 0 ∨ maxArrayIndex < maxIndex then
    throw .subscriptOutOfRange
  if maxNameLength ≤ name.length then
    throw .syntaxError
  match (← get).position? name .array with
  | none => pure ()
  | some position => checkedRemove position
  checkedAppend name (.array (List.replicate (maxIndex.toNat + 1) 0))

/-- Makes a loop variable of a number, or sets a loop variable up again. -/
def checkedStartLoop (name : Name) (limit : Int) (resume : Nat) : Trial Variables Unit := do
  let store ← get
  let _ ← store.checkedGet name .numeric
  match store.position? name .numeric, store.number name with
  | some position, .ok value => checkedReplace position (.loop value limit resume)
  | _, _ => throw .variableNotFound

/-- Counts a loop variable up by one; yields the line to resume at while the limit is not passed. -/
def checkedStepLoop (name : Name) : Trial Variables (Option Nat) := do
  let store ← get
  match store.position? name .numeric, ← store.checkedGet name .numeric with
  | some position, some (.loop value limit resume) =>
      let next ← Trial.ofAttempt (Attempt.ofExcept (store.size.checked (value + 1)))
      checkedOverwrite position fun _ => .loop next limit resume
      return if next ≤ limit then some resume else none
  | _, _ => throw .nextWithoutFor

/-! ## Looking up -/

/-- A variable that is found by its place is the one that is looked up. -/
theorem checkedGet_eq (store : Variables) (name : Name) (family : Family) :
    store.checkedGet name family = some (store.get? name family) := by
  rw [checkedGet, get?_eq]
  cases found : store.position? name family with
  | none => rfl
  | some position =>
      obtain ⟨record, placed, _⟩ := position?_eq_some found
      simp [placed]

/-- An index that is in range has its element. -/
theorem checkedElement_eq (store : Variables) (name : Name) (index : Int) :
    store.checkedElement name index = some (store.element name index) := by
  simp only [checkedElement, element, checkedGet_eq, Option.bind_eq_bind, Option.bind_some]
  cases store.get? name .array with
  | none => rfl
  | some contents =>
      cases contents with
      | number | loop | text => rfl
      | array values =>
          dsimp only
          cases found : elementAt values index with
          | error fault => rfl
          | ok place =>
              have inside := elementAt_lt found
              simp [inside]

/-- A store accounts for its records to the byte, and each of its arrays has an element. -/
structure Counted (store : Variables) : Prop where
  used_eq : store.used = 1 + bytesOf store.size store.records
  arrays : ∀ record ∈ store.records, record.contents ≠ .array []

theorem Sound.counted {size : WordSize} {capacity : Nat} (sound : store.Sound size capacity) :
    store.Counted where
  used_eq := by rw [sound.size_eq, sound.used_eq]
  arrays record member empty := by
    have packable := (sound.records record member).packable
    rw [empty] at packable
    exact packable.1 rfl

/-! ## Packing -/

theorem checkedPayload_eq (size : WordSize) {contents : Variable} (some : contents ≠ .array []) :
    checkedPayload size contents = .some (contents.payload size) := by
  cases contents with
  | number | loop | text => rfl
  | array values =>
      have nonempty : values ≠ [] := fun none => some (congrArg _ none)
      have counted : 1 ≤ values.length := List.length_pos_iff.mpr nonempty
      rw [checkedPayload, difference?_eq counted]
      rfl

theorem checkedPack_eq (size : WordSize) {records : List Record}
    (arrays : ∀ record ∈ records, record.contents ≠ .array []) :
    checkedPack size records = some (records.flatMap (·.pack size)) := by
  induction records with
  | nil => rfl
  | cons record rest inductionHypothesis =>
      obtain ⟨first, others⟩ := List.forall_mem_cons.mp arrays
      rw [checkedPack, checkedPayload_eq size first, inductionHypothesis others]
      rfl

namespace Counted

variable (counted : store.Counted)
include counted

theorem checkedEncode : store.checkedEncode = some store.encode := by
  rw [Variables.checkedEncode, checkedPack_eq _ counted.arrays]
  rfl

theorem byteSize_le (placed : store.records[position]? = some record) :
    record.byteSize store.size ≤ store.used := by
  have parts := bytesOf_eraseIdx store.size placed
  rw [counted.used_eq]
  omega

end Counted

/-! ## Changing -/

theorem succeeds_resize {old new : Nat} (inside : old ≤ store.used) :
    Succeeds (checkedResize old new) (resize old new) store := by
  unfold Succeeds checkedResize resize
  rw [Trial.bind_apply, Trial.get_apply]
  dsimp only [Option.bind_some]
  by_cases grows : old < new
  · have more : store.used + (new - old) = store.used + new - old := by omega
    rw [if_pos grows, difference?_eq (Nat.le_of_lt grows), Trial.bind_apply, Trial.lift_apply]
    simp only [grows, true_and, Option.map_some, Option.bind_some, more]
    split <;> rfl
  · have fewer : store.used - (old - new) = store.used + new - old := by omega
    have within : old - new ≤ store.used := Nat.le_trans (Nat.sub_le old new) inside
    rw [if_neg grows, difference?_eq (Nat.le_of_not_lt grows), Trial.bind_apply, Trial.lift_apply]
    simp only [grows, false_and, if_false, Option.map_some, Option.bind_some, Trial.bind_apply,
      difference?_eq within, Trial.lift_apply, fewer]
    rfl

theorem succeeds_append (name : Name) (contents : Variable) (store : Variables) :
    Succeeds (checkedAppend name contents) (append name contents) store := by
  refine Succeeds.bind rfl fun _ _ run => ?_
  cases run
  exact (succeeds_resize (Nat.zero_le _)).bind fun _ _ _ => rfl

theorem succeeds_overwrite (placed : store.records[position]? = some record)
    (change : Variable → Variable) :
    Succeeds (checkedOverwrite position change) (overwrite position change) store := by
  unfold checkedOverwrite Succeeds
  rw [Trial.bind_apply, Trial.get_apply]
  simp only [Option.bind_some, placed, Trial.bind_apply, Trial.lift_apply, Option.map_some]
  rfl

theorem succeeds_assignNumber (name : Name) (value : Int) (store : Variables) :
    Succeeds (checkedAssignNumber name value) (assignNumber name value) store := by
  refine Succeeds.bind rfl fun _ _ run => ?_
  cases run
  cases found : store.position? name .numeric with
  | none => exact succeeds_append name _ store
  | some position =>
      obtain ⟨record, placed, _⟩ := position?_eq_some found
      exact succeeds_overwrite placed _

namespace Counted

variable (counted : store.Counted)
include counted

theorem succeeds_replace (placed : store.records[position]? = some record)
    (contents : Variable) :
    Succeeds (checkedReplace position contents) (replace position contents) store := by
  have shares : record.contents.payloadSize store.size ≤ record.byteSize store.size :=
    Nat.le_add_left _ _
  have size : record.byteSize store.size - record.contents.payloadSize store.size +
      contents.payloadSize store.size = ({ record with contents }.byteSize store.size) := by
    simp only [Record.byteSize]
    omega
  refine Succeeds.bind rfl fun _ _ run => ?_
  cases run
  refine Succeeds.bind_lift placed (Succeeds.bind_lift (difference?_eq shares) ?_)
  rw [size, placed]
  refine (succeeds_resize (counted.byteSize_le placed)).bind fun _ reached run => ?_
  have kept : reached.records = store.records := by
    unfold resize at run
    dsimp only at run
    split at run
    · cases run
    · cases run
      rfl
  exact succeeds_overwrite (kept ▸ placed) _

theorem succeeds_remove (placed : store.records[position]? = some record) :
    Succeeds (checkedRemove position) (remove position) store := by
  have inside := counted.byteSize_le placed
  unfold Succeeds checkedRemove remove
  rw [Trial.bind_apply, Trial.get_apply]
  simp only [Option.bind_some, placed, Trial.bind_apply, Trial.lift_apply, Option.map_some,
    difference?_eq inside, Attempt.modify_apply]
  rfl

theorem succeeds_assignText (name : Name) (codes : List Code) :
    Succeeds (checkedAssignText name codes) (assignText name codes) store := by
  refine Succeeds.bind rfl fun _ _ run => ?_
  cases run
  cases found : store.position? name .text with
  | none => exact succeeds_append name _ store
  | some position =>
      obtain ⟨record, placed, _⟩ := position?_eq_some found
      exact counted.succeeds_replace placed _

theorem succeeds_declareArray (name : Name) (maxIndex : Int) :
    Succeeds (checkedDeclareArray name maxIndex) (declareArray name maxIndex) store := by
  unfold checkedDeclareArray declareArray
  refine Succeeds.guard fun _ => ?_
  refine Succeeds.guard fun _ => ?_
  refine Succeeds.bind rfl fun _ _ run => ?_
  cases run
  cases found : store.position? name .array with
  | none => exact succeeds_append name _ store
  | some position =>
      obtain ⟨record, placed, _⟩ := position?_eq_some found
      exact (counted.succeeds_remove placed).bind fun _ reached _ => succeeds_append name _ reached

theorem succeeds_startLoop (name : Name) (limit : Int) (resume : Nat) :
    Succeeds (checkedStartLoop name limit resume) (startLoop name limit resume) store := by
  refine Succeeds.bind rfl fun _ _ run => ?_
  cases run
  refine Succeeds.bind_lift (checkedGet_eq store name .numeric) ?_
  cases found : store.position? name .numeric with
  | none => rfl
  | some position =>
      obtain ⟨record, placed, _⟩ := position?_eq_some found
      rcases store.number name with fault | value
      · rfl
      · exact counted.succeeds_replace placed _

end Counted

theorem succeeds_assignElement (name : Name) (index value : Int) (store : Variables) :
    Succeeds (checkedAssignElement name index value) (assignElement name index value) store := by
  refine Succeeds.bind rfl fun _ _ run => ?_
  cases run
  refine Succeeds.bind_lift (checkedGet_eq store name .array) ?_
  cases found : store.position? name .array with
  | none => rfl
  | some position =>
      obtain ⟨record, placed, _⟩ := position?_eq_some found
      rcases store.get? name .array with _ | _ | _ | values | _
      case some.array =>
        refine Succeeds.bind rfl fun place reached run => ?_
        obtain ⟨within, rfl⟩ := Prod.mk.inj run
        exact Succeeds.bind_lift (List.getElem?_eq_getElem (elementAt_lt within))
          (succeeds_overwrite placed _)
      all_goals rfl

theorem succeeds_stepLoop (name : Name) (store : Variables) :
    Succeeds (checkedStepLoop name) (stepLoop name) store := by
  refine Succeeds.bind rfl fun _ _ run => ?_
  cases run
  refine Succeeds.bind_lift (checkedGet_eq store name .numeric) ?_
  cases found : store.position? name .numeric with
  | none => rfl
  | some position =>
      obtain ⟨record, placed, _⟩ := position?_eq_some found
      rcases store.get? name .numeric with _ | _ | ⟨value, limit, resume⟩ | _ | _
      case some.loop =>
        refine Succeeds.bind rfl fun next reached run => ?_
        obtain ⟨_, rfl⟩ := Prod.mk.inj run
        exact (succeeds_overwrite placed _).bind fun _ _ _ => rfl
      all_goals rfl

end Variables
end HomeBasic
