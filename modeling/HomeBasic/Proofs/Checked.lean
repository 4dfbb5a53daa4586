import HomeBasic.Attempt
import HomeBasic.Line

/-!
# Operations that are checked

A slice, a splice, a difference of numbers without a sign, a remainder, and the line number
after another have no outcome where they would be out of bounds. A trial is a step made of such
operations, and has no outcome as soon as one of them has none.

Main statement: a trial that comes to what a step comes to may be followed by another
(`Trial.Succeeds.bind`).
-/

namespace HomeBasic
namespace Checked

variable {α : Type} {items before middle after : List α} {first last : Nat}

/-- The items from one place up to another. -/
def slice? (items : List α) (first last : Nat) : Option (List α) :=
  if first ≤ last ∧ last ≤ items.length then some ((items.take last).drop first) else none

/-- Puts items in place of those from one place up to another. -/
def splice? (items : List α) (first last : Nat) (middle : List α) : Option (List α) :=
  if first ≤ last ∧ last ≤ items.length then
    some (items.take first ++ middle ++ items.drop last)
  else
    none

/-- What is left of a number without a part of it. -/
def difference? (whole part : Nat) : Option Nat :=
  if part ≤ whole then some (whole - part) else none

/-- A number modulo another. -/
def remainder? (value : Int) (modulus : Nat) : Option Nat :=
  if modulus = 0 then none else some (value % modulus).toNat

/-- The line number after another, in the sixteen bits that hold one. -/
def numberAfter? (number : Nat) : Option Nat :=
  if number + 1 < 65536 then some (number + 1) else none

theorem slice?_eq (ascending : first ≤ last) (inside : last ≤ items.length) :
    slice? items first last = some ((items.take last).drop first) :=
  if_pos ⟨ascending, inside⟩

/-- A slice is what stands between what comes before and after it. -/
theorem slice?_append (starts : first = before.length)
    (ends : last = before.length + middle.length) :
    slice? (before ++ (middle ++ after)) first last = some middle := by
  subst starts ends
  rw [slice?_eq (Nat.le_add_right _ _) (by simp)]
  rw [← List.append_assoc, ← List.length_append, List.take_left, List.drop_left]

theorem splice?_eq (ascending : first ≤ last) (inside : last ≤ items.length) :
    splice? items first last middle = some (items.take first ++ middle ++ items.drop last) :=
  if_pos ⟨ascending, inside⟩

theorem difference?_eq {whole part : Nat} (inside : part ≤ whole) :
    difference? whole part = some (whole - part) :=
  if_pos inside

theorem remainder?_eq {modulus : Nat} (positive : 1 ≤ modulus) (value : Int) :
    remainder? value modulus = some (value % modulus).toNat :=
  if_neg (Nat.ne_of_gt positive)

/-- The number of a line is followed by another. -/
theorem numberAfter?_eq {number : Nat} (numbered : number ≤ Line.maxNumber) :
    numberAfter? number = some (Line.numberAfter number) := by
  simp only [Line.maxNumber] at numbered
  rw [numberAfter?, if_pos (by omega), Line.numberAfter, Nat.mod_eq_of_lt (by omega)]

end Checked

/-- A step with its operations checked. It has no outcome where one of them is out of bounds. -/
abbrev Trial (σ α : Type) := ExceptT Fault (StateT σ Option) α

namespace Trial

variable {σ whole part α β : Type}

/-- A step with nothing to check. -/
def ofAttempt (step : Attempt σ α) : Trial σ α := fun state =>
  some (step state)

/-- Runs a trial on a part of a larger state. -/
def within (get : whole → part) (set : part → whole → whole) (trial : Trial part α) :
    Trial whole α := fun state => do
  let (result, changed) ← trial (get state)
  return (result, set changed state)

/-- From a state a trial comes to what a step comes to that checks nothing. -/
def Succeeds (trial : Trial σ α) (step : Attempt σ α) (state : σ) : Prop :=
  trial state = some (step state)

theorem bind_apply (trial : Trial σ α) (next : α → Trial σ β) (state : σ) :
    (trial >>= next) state =
      (trial state).bind fun
        | (.ok value, reached) => next value reached
        | (.error fault, reached) => some (.error fault, reached) := by
  change ((trial state).bind fun outcome => ExceptT.bindCont next outcome.1 outcome.2) = _
  congr 1
  funext outcome
  rcases outcome with ⟨fault | value, reached⟩ <;> rfl

@[simp] theorem pure_apply (value : α) (state : σ) :
    (pure value : Trial σ α) state = some (.ok value, state) := rfl

@[simp] theorem throw_apply (fault : Fault) (state : σ) :
    (throw fault : Trial σ α) state = some (.error fault, state) := rfl

@[simp] theorem get_apply (state : σ) : (get : Trial σ σ) state = some (.ok state, state) := rfl

@[simp] theorem set_apply (changed state : σ) :
    (set changed : Trial σ PUnit) state = some (.ok ⟨⟩, changed) := rfl

/-- A checked operation has its outcome and changes nothing. -/
@[simp] theorem lift_apply (operation : Option α) (state : σ) :
    (liftM operation : Trial σ α) state = operation.map fun value => (.ok value, state) := by
  cases operation <;> rfl

namespace Succeeds

variable {trial : Trial σ α} {step : Attempt σ α} {state : σ}

theorem bind {next : α → Trial σ β} {following : α → Attempt σ β}
    (first : Succeeds trial step state)
    (rest : ∀ value reached, step state = (.ok value, reached) →
      Succeeds (next value) (following value) reached) :
    Succeeds (trial >>= next) (step >>= following) state := by
  have first : trial state = some (step state) := first
  rw [Succeeds, bind_apply, Attempt.bind_apply, first]
  rcases run : step state with ⟨fault | value, reached⟩
  · rfl
  · exact rest value reached run

/-- A checked operation with an outcome may be left out. -/
theorem bind_lift {operation : Option β} {value : β} {next : β → Trial σ α}
    (outcome : operation = some value) (rest : Succeeds (next value) step state) :
    Succeeds (liftM operation >>= next) step state := by
  subst outcome
  exact rest

/-- A step with a condition that it fails under has the condition to fail under when checked. -/
theorem guard {condition : Prop} [Decidable condition] {fault : Fault}
    {rest : PUnit → Trial σ α} {following : PUnit → Attempt σ α}
    (otherwise : ¬condition → Succeeds (rest ⟨⟩) (following ⟨⟩) state) :
    Succeeds (if condition then throw fault >>= rest else rest ⟨⟩)
      (if condition then throw fault >>= following else following ⟨⟩) state := by
  split
  · rfl
  next passed => exact otherwise passed

theorem within {get : whole → part} {set : part → whole → whole} {state : whole}
    {trial : Trial part α} {step : Attempt part α} (inner : Succeeds trial step (get state)) :
    Succeeds (Trial.within get set trial) (Attempt.within get set step) state := by
  have inner : trial (get state) = some (step (get state)) := inner
  rw [Succeeds, Trial.within, inner]
  rfl

theorem ofAttempt (step : Attempt σ α) (state : σ) :
    Succeeds (Trial.ofAttempt step) step state :=
  rfl

end Succeeds

end Trial
end HomeBasic
