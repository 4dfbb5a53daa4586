import HomeBasic.Fault

/-!
# Bounded stacks

A stack with room for a fixed number of items. Pushing onto a full stack is out
of memory and leaves the stack as it is.

Main statements: a push succeeds exactly when there is room (`push_eq_ok_iff`),
and a pop undoes it (`pop?_of_push`).
-/

namespace HomeBasic

/-- A stack of limited size, its top first. -/
structure BoundedStack (α : Type) where
  capacity : Nat
  items : List α
  deriving DecidableEq, Repr, Inhabited

namespace BoundedStack

variable {α : Type}

/-- A stack with nothing on it. -/
def empty (capacity : Nat) : BoundedStack α := ⟨capacity, []⟩

/-- The number of items. -/
def length (stack : BoundedStack α) : Nat :=
  stack.items.length

/-- The stack has no items. -/
def isEmpty (stack : BoundedStack α) : Bool :=
  stack.items.isEmpty

/-- The stack has no room for another item. -/
def isFull (stack : BoundedStack α) : Bool :=
  stack.capacity ≤ stack.length

/-- The item on top. -/
def top? (stack : BoundedStack α) : Option α :=
  stack.items.head?

/-- Takes all items off. -/
def clear (stack : BoundedStack α) : BoundedStack α :=
  { stack with items := [] }

/-- Puts an item on top, if there is room. -/
def push (stack : BoundedStack α) (item : α) : Except Fault (BoundedStack α) :=
  if stack.isFull then .error .outOfMemory
  else .ok { stack with items := item :: stack.items }

/-- Takes the item off the top, if there is one. -/
def pop? (stack : BoundedStack α) : Option (α × BoundedStack α) :=
  match stack.items with
  | [] => none
  | item :: rest => some (item, { stack with items := rest })

/-- Takes items off until no more than a given number are left. -/
def truncate (stack : BoundedStack α) (length : Nat) : BoundedStack α :=
  { stack with items := stack.items.drop (stack.items.length - length) }

@[simp] theorem truncate_length (stack : BoundedStack α) : stack.truncate stack.length = stack := by
  simp [truncate, length]

/-- A push succeeds exactly when there is room. -/
theorem push_eq_ok_iff {stack pushed : BoundedStack α} {item : α} :
    stack.push item = .ok pushed ↔
      stack.length < stack.capacity ∧ pushed = { stack with items := item :: stack.items } := by
  unfold push isFull
  by_cases full : stack.capacity ≤ stack.length
  · simp [full, Nat.not_lt.mpr full]
  · simp [full, Nat.lt_of_not_le full, eq_comm]

/-- What was pushed is popped, and the stack is as it was before. -/
theorem pop?_of_push {stack pushed : BoundedStack α} {item : α}
    (result : stack.push item = .ok pushed) : pushed.pop? = some (item, stack) := by
  obtain ⟨_, rfl⟩ := push_eq_ok_iff.mp result
  rfl

/-- A push makes a stack longer by one, and never longer than its capacity. -/
theorem length_of_push {stack pushed : BoundedStack α} {item : α}
    (result : stack.push item = .ok pushed) :
    pushed.length = stack.length + 1 ∧ pushed.length ≤ pushed.capacity := by
  obtain ⟨room, rfl⟩ := push_eq_ok_iff.mp result
  exact ⟨rfl, room⟩

end BoundedStack
end HomeBasic
