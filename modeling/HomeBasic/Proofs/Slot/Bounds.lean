import HomeBasic.Proofs.Program.Bounds
import HomeBasic.Proofs.Slot.Image
import HomeBasic.Proofs.Variables.Unpacking

/-!
# Bounds of an image

An image is packed and unpacked with every slice and every difference within bounds: any
sound image, the built-in one too, and any block at all (`checkedDecode_eq`).
-/

namespace HomeBasic
namespace Image

open Checked

variable {config : Config} {image : Image}

/-! ## With everything checked -/

/-- The block that holds an image. -/
def checkedEncode (config : Config) (image : Image) : Option (List Code) := do
  let packed ← image.variableStore.checkedEncode
  return fit config.blockSize (fit config.programSize image.program.bytes ++ packed)

/-- The image that a block holds, if it has the right size and both stores are well formed. -/
def checkedDecode (config : Config) (block : List Code) : Option (Except SlotFault Image) :=
  if block.length ≠ config.blockSize then
    some (.error .corrupt)
  else do
    let stored ← slice? block 0 config.programSize
    let packed ← slice? block config.programSize block.length
    match ← Program.checkedDecode config.programSize stored with
    | none => return .error .corrupt
    | some program =>
        match ← Variables.checkedDecode config.word config.variablesSize packed with
        | none => return .error .corrupt
        | some variableStore => return .ok ⟨program, variableStore⟩

/-- Stores lines in order, up to the first that has no room. -/
def checkedStoreLines : List Line → Program → Option Program
  | [], program => some program
  | line :: rest, program => do
      match ← program.checkedInsert line.number line.body with
      | .ok longer => checkedStoreLines rest longer
      | .error _ => return program

/-- The block that slot 0 holds. -/
def checkedBuiltin (config : Config) : Option (List Code) := do
  let program ← checkedStoreLines builtinLines (Program.empty config.programSize)
  checkedEncode config ⟨program, Variables.empty config.word config.variablesSize⟩

/-! ## Within bounds -/

theorem checkedEncode_eq (counted : image.variableStore.Counted) :
    checkedEncode config image = some (encode config image) := by
  rw [checkedEncode, counted.checkedEncode]
  rfl

/-- Whatever block is loaded, it is taken apart within its bounds. -/
theorem checkedDecode_eq (config : Config) (block : List Code) :
    checkedDecode config block = some (decode config block) := by
  unfold checkedDecode decode
  by_cases fits : block.length = config.blockSize
  · have inside : config.programSize ≤ block.length := by
      rw [fits, Config.blockSize]
      exact Nat.le_add_right _ _
    rw [if_neg (not_not.mpr fits), if_neg (not_not.mpr fits),
      slice?_eq (Nat.zero_le _) inside, slice?_eq inside (Nat.le_refl _), List.take_length]
    simp only [Option.bind_eq_bind, Option.bind_some, List.drop_zero, Program.checkedDecode_eq,
      Variables.checkedDecode_eq]
    cases Program.decode? config.programSize (block.take config.programSize) with
    | none => rfl
    | some program =>
        dsimp only
        cases Variables.decode? config.word config.variablesSize
          (block.drop config.programSize) <;> rfl
  · rw [if_pos fits, if_pos fits]

theorem checkedStoreLines_eq {capacity : Nat} {lines : List Line} {program : Program}
    (sound : program.Sound capacity)
    (numbered : ∀ line ∈ lines, 0 < line.number ∧ line.number ≤ Line.maxNumber)
    (oneLine : ∀ line ∈ lines, Code.newline ∉ line.body) :
    checkedStoreLines lines program = some (storeLines lines program) := by
  induction lines generalizing program with
  | nil => rfl
  | cons line rest inductionHypothesis =>
      have first := numbered line (by simp)
      simp only [checkedStoreLines, storeLines, sound.checkedInsert first, Option.bind_eq_bind,
        Option.bind_some]
      cases inserted : program.insert line.number line.body with
      | error fault => rfl
      | ok longer =>
          have sound := sound.insert first (oneLine line (by simp)) inserted
          exact inductionHypothesis sound (fun other member => numbered other (by simp [member]))
            fun other member => oneLine other (by simp [member])

/-- The built-in program is stored and packed within bounds. -/
theorem checkedBuiltin_eq (room : 2 ≤ config.programSize) :
    checkedBuiltin config = some (builtin config) := by
  have numbered : ∀ line ∈ builtinLines, 0 < line.number ∧ line.number ≤ Line.maxNumber := by
    decide +kernel
  have oneLine : ∀ line ∈ builtinLines, Code.newline ∉ line.body := by
    decide +kernel
  have empty : (Variables.empty config.word config.variablesSize).Counted :=
    ⟨rfl, by simp [Variables.empty]⟩
  rw [checkedBuiltin, checkedStoreLines_eq (Program.sound_empty room) numbered oneLine]
  exact @checkedEncode_eq config ⟨_, _⟩ empty

end Image
end HomeBasic
