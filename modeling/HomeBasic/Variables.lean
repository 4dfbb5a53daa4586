import HomeBasic.Attempt
import HomeBasic.Variables.Record

/-!
# The variable store

Records are kept in the order they were made and accounted for byte by byte, as
if they were packed; one byte more ends the store. A store that cannot grow is
out of memory. A name stands for one variable in each family, and a loop variable
is a number with a limit and a line to resume at.
-/

namespace HomeBasic

/-- Variables in the order they were made, the room for them, and how much of it they take. -/
structure Variables where
  size : WordSize
  records : List Variables.Record
  capacity : Nat
  /-- The bytes in use, the end of the store included. -/
  used : Nat
  deriving DecidableEq, Repr, Inhabited

namespace Variables

/-- A store without variables. -/
def empty (size : WordSize) (capacity : Nat) : Variables :=
  ⟨size, [], capacity, 1⟩

/-- The store without its variables. -/
def clear (store : Variables) : Variables :=
  empty store.size store.capacity

/-- The store has no variables. -/
def isEmpty (store : Variables) : Bool :=
  store.records.isEmpty

/-! ## Looking up -/

/-- The place of a variable among the records. -/
def position? (store : Variables) (name : Name) (family : Family) : Option Nat :=
  store.records.findIdx? (·.isFor name family)

/-- The variable of a name in a family. -/
def get? (store : Variables) (name : Name) (family : Family) : Option Variable :=
  (store.records.find? (·.isFor name family)).map (·.contents)

/-- The number of a name; a loop variable is one too. -/
def number (store : Variables) (name : Name) : Except Fault Int :=
  match store.get? name .numeric with
  | some (.number value) => .ok value
  | some (.loop value _ _) => .ok value
  | _ => .error .variableNotFound

/-- The text of a name. -/
def text (store : Variables) (name : Name) : Except Fault (List Code) :=
  match store.get? name .text with
  | some (.text codes) => .ok codes
  | _ => .error .variableNotFound

/-- The place of an index in an array. -/
def elementAt (values : List Int) (index : Int) : Except Fault Nat :=
  if 0 ≤ index ∧ index < values.length then .ok index.toNat else .error .subscriptOutOfRange

/-- The element at an index of the array of a name. -/
def element (store : Variables) (name : Name) (index : Int) : Except Fault Int :=
  match store.get? name .array with
  | some (.array values) =>
      match elementAt values index with
      | .ok place => .ok (values.getD place 0)
      | .error fault => .error fault
  | _ => .error .variableNotFound

/-! ## Changing the store -/

/-- Accounts for something that took `old` bytes and now takes `new`. -/
def resize (old new : Nat) : Attempt Variables Unit := fun store =>
  let used := store.used + new - old
  if old < new ∧ store.capacity < used then
    (.error .outOfMemory, store)
  else
    (.ok (), { store with used })

/-- Adds a record behind the others. -/
def append (name : Name) (contents : Variable) : Attempt Variables Unit := do
  let record : Record := ⟨name, contents⟩
  resize 0 (record.byteSize (← get).size)
  modify fun store => { store with records := store.records ++ [record] }

/-- Changes the contents of a record without changing its size. -/
def overwrite (position : Nat) (change : Variable → Variable) : Attempt Variables Unit :=
  modify fun store =>
    { store with
      records := store.records.modify position fun record =>
        { record with contents := change record.contents } }

/-- Puts a variable in place of another of the same name. -/
def replace (position : Nat) (contents : Variable) : Attempt Variables Unit := do
  let store ← get
  match store.records[position]? with
  | none => pure ()
  | some record =>
      resize (record.byteSize store.size)
        ({ record with contents }.byteSize store.size)
      overwrite position fun _ => contents

/-- Gives a number a value; a loop variable keeps its loop. -/
def assignNumber (name : Name) (value : Int) : Attempt Variables Unit := do
  match (← get).position? name .numeric with
  | none => append name (.number value)
  | some position =>
      overwrite position fun
        | .loop _ limit resume => .loop value limit resume
        | _ => .number value

/-- Gives a text a value. -/
def assignText (name : Name) (codes : List Code) : Attempt Variables Unit := do
  match (← get).position? name .text with
  | none => append name (.text codes)
  | some position => replace position (.text codes)

/-- Gives an element of an array a value. -/
def assignElement (name : Name) (index value : Int) : Attempt Variables Unit := do
  let store ← get
  match store.position? name .array, store.get? name .array with
  | some position, some (.array values) =>
      let place ← Attempt.ofExcept (elementAt values index)
      overwrite position fun _ => .array (values.set place value)
  | _, _ => throw .variableNotFound

/-- Takes a record away. -/
def remove (position : Nat) : Attempt Variables Unit :=
  modify fun store =>
    match store.records[position]? with
    | none => store
    | some record =>
        { store with
          records := store.records.eraseIdx position
          used := store.used - record.byteSize store.size }

/--
Makes an array of zeros with a highest index, in place of any of the same name.
The longest name is refused, for its header would read as the end of the store.
-/
def declareArray (name : Name) (maxIndex : Int) : Attempt Variables Unit := do
  if maxIndex < 0 ∨ maxArrayIndex < maxIndex then
    throw .subscriptOutOfRange
  if maxNameLength ≤ name.length then
    throw .syntaxError
  match (← get).position? name .array with
  | none => pure ()
  | some position => remove position
  append name (.array (List.replicate (maxIndex.toNat + 1) 0))

/-- Makes a loop variable of a number, or sets a loop variable up again. -/
def startLoop (name : Name) (limit : Int) (resume : Nat) : Attempt Variables Unit := do
  let store ← get
  match store.position? name .numeric, store.number name with
  | some position, .ok value => replace position (.loop value limit resume)
  | _, _ => throw .variableNotFound

/-- Counts a loop variable up by one; yields the line to resume at while the limit is not passed. -/
def stepLoop (name : Name) : Attempt Variables (Option Nat) := do
  let store ← get
  match store.position? name .numeric, store.get? name .numeric with
  | some position, some (.loop value limit resume) =>
      let next ← Attempt.ofExcept (store.size.checked (value + 1))
      overwrite position fun _ => .loop next limit resume
      return if next ≤ limit then some resume else none
  | _, _ => throw .nextWithoutFor

end Variables
end HomeBasic
