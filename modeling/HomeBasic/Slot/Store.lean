import HomeBasic.Code
import HomeBasic.Fault

/-!
# Slots

A slot store keeps whole blocks under slot numbers. A transfer that fails says
why, in a message for the reader and as the fault that the program stops with.
-/

namespace HomeBasic

/-- The reasons for which a transfer fails. -/
inductive SlotFault
  | noSuchSlot (slot : Nat)
  | readOnly
  | empty (slot : Nat)
  /-- The other end stopped in the middle of a block. -/
  | shortRead
  | checksum (slot : Nat)
  | unexpectedReply
  | saveRefused
  | unknownRequest
  | corrupt
  /-- A server answered with an error status. -/
  | status (code : Nat)
  deriving DecidableEq, Repr, Inhabited

namespace SlotFault

/-- What went wrong, for the reader. -/
def message : SlotFault → String
  | noSuchSlot slot => "no slot " ++ toString slot
  | readOnly => "slot 0 is read only"
  | empty slot => "slot " ++ toString slot ++ " is empty"
  | shortRead => "slot i/o: failed to fill whole buffer"
  | checksum slot => "slot " ++ toString slot ++ " failed its checksum"
  | unexpectedReply => "slot link: unexpected reply"
  | saveRefused => "slot link: save refused"
  | unknownRequest => "slot link: unknown request"
  | corrupt => "slot image is corrupt"
  | status code => "slot http: status " ++ toString code

/-- The fault that a failed `SAVE` or `LOAD` stops with. -/
def fault : SlotFault → Fault
  | noSuchSlot _ | readOnly => .subscriptOutOfRange
  | _ => .stopped

end SlotFault

/-- Storage for whole blocks, in slots numbered from zero. -/
class SlotStore (S : Type) where
  /-- The number of slots. -/
  slotCount : S → Nat
  /-- Fetches the block of a slot. -/
  read : Nat → S → Except SlotFault (List Code) × S
  /-- Puts a block into a slot. -/
  persist : Nat → List Code → S → Except SlotFault Unit × S

/-- Slots kept in memory, each with its block if it has one. -/
structure MemorySlots where
  blocks : List (Option (List Code))
  deriving DecidableEq, Repr, Inhabited

namespace MemorySlots

/-- So many slots without a block. -/
def empty (count : Nat) : MemorySlots :=
  ⟨List.replicate count none⟩

/-- The block of a slot. -/
def read (slots : MemorySlots) (slot : Nat) : Except SlotFault (List Code) :=
  match slots.blocks[slot]? with
  | some (some block) => .ok block
  | some none => .error (.empty slot)
  | none => .error (.noSuchSlot slot)

/-- Keeps a block in a slot. -/
def persist (slots : MemorySlots) (slot : Nat) (block : List Code) :
    Except SlotFault MemorySlots :=
  if slot < slots.blocks.length then .ok ⟨slots.blocks.set slot (some block)⟩
  else .error (.noSuchSlot slot)

instance : SlotStore MemorySlots where
  slotCount slots := slots.blocks.length
  read slot slots := (slots.read slot, slots)
  persist slot block slots :=
    match slots.persist slot block with
    | .ok changed => (.ok (), changed)
    | .error fault => (.error fault, slots)

/-- A kept block is read back. -/
theorem read_persist {slots changed : MemorySlots} {slot : Nat} {block : List Code}
    (result : slots.persist slot block = .ok changed) : changed.read slot = .ok block := by
  unfold persist at result
  split at result
  · cases result
    simp [read, *]
  · contradiction

/-- The other slots are left alone. -/
theorem read_persist_of_ne {slots changed : MemorySlots} {slot other : Nat} {block : List Code}
    (result : slots.persist slot block = .ok changed) (different : slot ≠ other) :
    changed.read other = slots.read other := by
  unfold persist at result
  split at result
  · cases result
    simp [read, List.getElem?_set_ne different]
  · contradiction

end MemorySlots
end HomeBasic
