import HomeBasic.Bytes
import HomeBasic.Slot.Checksum
import HomeBasic.Slot.Store

/-!
# Slots in a directory

Each slot has a file of its own, which holds the block and behind it its checksum
in four bytes. A file that is too short or whose checksum does not fit is damaged.
-/

namespace HomeBasic

/-- The files of a directory of slots, by slot number. -/
structure DirectorySlots where
  count : Nat
  files : List (Nat × List Code)
  deriving DecidableEq, Repr

namespace DirectorySlots

/-- A directory without files. -/
def empty (count : Nat) : DirectorySlots :=
  ⟨count, []⟩

/-- The contents of the file of a slot. -/
def file? (slots : DirectorySlots) (slot : Nat) : Option (List Code) :=
  slots.files.lookup slot

/-- Writes the file of a slot. -/
def writeFile (slots : DirectorySlots) (slot : Nat) (contents : List Code) : DirectorySlots :=
  { slots with files := (slot, contents) :: slots.files.filter (·.1 != slot) }

/-- The bytes of a checksum. -/
def trailer (block : List Code) : List Code :=
  Bytes.toLittleEndian 4 (Checksum.crc32 block).toNat

/-- What a file holds for a block. -/
def contentsOf (block : List Code) : List Code :=
  block ++ trailer block

/-- The block that a file holds, if it is not damaged. -/
def blockOf? (contents : List Code) : Option (List Code) :=
  let block := contents.take (contents.length - 4)
  if 4 ≤ contents.length ∧ contents.drop (contents.length - 4) = trailer block then some block
  else none

/-- A block comes back from its file. -/
theorem blockOf?_contentsOf (block : List Code) : blockOf? (contentsOf block) = some block := by
  simp [blockOf?, contentsOf, trailer]

/-- The block of a slot, read from its file. -/
def read (slots : DirectorySlots) (slot : Nat) : Except SlotFault (List Code) :=
  if slot < slots.count then
    match slots.file? slot with
    | none => .error (.empty slot)
    | some contents =>
        match blockOf? contents with
        | some block => .ok block
        | none => .error (.checksum slot)
  else
    .error (.noSuchSlot slot)

/-- Writes a block into the file of its slot. -/
def persist (slots : DirectorySlots) (slot : Nat) (block : List Code) :
    Except SlotFault DirectorySlots :=
  if slot < slots.count then .ok (slots.writeFile slot (contentsOf block))
  else .error (.noSuchSlot slot)

instance : SlotStore DirectorySlots where
  slotCount slots := slots.count
  read slot slots := (slots.read slot, slots)
  persist slot block slots :=
    match slots.persist slot block with
    | .ok changed => (.ok (), changed)
    | .error fault => (.error fault, slots)

@[simp] theorem file?_writeFile (slots : DirectorySlots) (slot : Nat) (contents : List Code) :
    (slots.writeFile slot contents).file? slot = some contents := by
  simp [writeFile, file?]

end DirectorySlots
end HomeBasic
