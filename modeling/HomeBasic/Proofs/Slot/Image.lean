import HomeBasic.Proofs.Program.Reading
import HomeBasic.Proofs.Variables.Reading
import HomeBasic.Slot.Image

/-!
# Images of sound machines

Main statements: a sound program with sound variables comes back from its image
(`decode_encode`), and whatever block is taken for an image, what it holds is sound
(`sound_of_decode`).
-/

namespace HomeBasic
namespace Image

/-- An image of stores that have the dimensions of a machine. -/
structure Sound (config : Config) (image : Image) : Prop where
  program : image.program.Sound config.programSize
  variableStore : image.variableStore.Sound config.word config.variablesSize

theorem fit_of_le {length : Nat} {bytes : List Code} (room : bytes.length ≤ length) :
    fit length bytes = bytes ++ List.replicate (length - bytes.length) 0 := by
  rw [fit, List.take_of_length_le room]

variable {config : Config} {image : Image}

/-- The image of a sound machine holds it. -/
theorem decode_encode (sound : image.Sound config) :
    decode config (encode config image) = .ok image := by
  have programRoom := sound.program.within
  have used := sound.variableStore.used_eq
  have within := sound.variableStore.within
  have length := Variables.length_encode image.variableStore
  rw [sound.variableStore.size_eq] at length
  have whole : encode config image =
      fit config.programSize image.program.bytes ++ (image.variableStore.encode ++
        List.replicate (config.variablesSize - image.variableStore.encode.length) 0) := by
    rw [encode, fit_of_le, List.append_assoc, List.length_append, length_fit]
    · have left : config.blockSize - (config.programSize + image.variableStore.encode.length) =
          config.variablesSize - image.variableStore.encode.length := by
        rw [Config.blockSize]
        omega
      rw [left]
    · rw [List.length_append, length_fit, Config.blockSize]
      omega
  have first : (encode config image).take config.programSize =
      image.program.bytes ++
        List.replicate (config.programSize - image.program.bytes.length) 0 := by
    rw [whole, List.take_left' (length_fit _ _), fit_of_le programRoom]
  have second : (encode config image).drop config.programSize =
      image.variableStore.encode ++
        List.replicate (config.variablesSize - image.variableStore.encode.length) 0 := by
    rw [whole, List.drop_left' (length_fit _ _)]
  rw [decode, if_neg (by simp), first, Program.decode?_bytes sound.program, second]
  dsimp only
  rw [Variables.decode?_encode sound.variableStore]

/-- A block is taken for an image exactly if it has the right size and each of its halves holds
what it should. -/
theorem decode_eq_ok_iff {block : List Code} :
    decode config block = .ok image ↔
      block.length = config.blockSize ∧
        Program.decode? config.programSize (block.take config.programSize) =
          some image.program ∧
        Variables.decode? config.word config.variablesSize (block.drop config.programSize) =
          some image.variableStore := by
  obtain ⟨program, variableStore⟩ := image
  unfold decode
  by_cases whole : block.length = config.blockSize
  · rw [if_neg (not_not.mpr whole)]
    cases Program.decode? config.programSize (block.take config.programSize) with
    | none => simp
    | some first =>
        cases Variables.decode? config.word config.variablesSize
            (block.drop config.programSize) with
        | none => simp
        | some second => simp [whole]
  · rw [if_pos whole]
    exact ⟨nofun, fun taken => absurd taken.1 whole⟩

/-- A block that is taken for an image holds a program and variables. -/
theorem read_of_decode {block : List Code} (run : decode config block = .ok image) :
    Program.decode? config.programSize (block.take config.programSize) = some image.program ∧
      Variables.decode? config.word config.variablesSize (block.drop config.programSize) =
        some image.variableStore :=
  (decode_eq_ok_iff.mp run).2

/-- A block that is not taken for an image is corrupt, whatever is wrong with it. -/
theorem decode_eq_error {block : List Code} {fault : SlotFault}
    (run : decode config block = .error fault) : fault = .corrupt := by
  unfold decode at run
  split at run
  · cases run
    rfl
  · split at run
    · cases run
      rfl
    · split at run
      · cases run
        rfl
      · cases run

/-- What a block holds that is taken for an image is sound. -/
theorem sound_of_decode {block : List Code} (room : 1 ≤ config.variablesSize)
    (run : decode config block = .ok image) : image.Sound config :=
  let ⟨program, variableStore⟩ := read_of_decode run
  ⟨Program.sound_of_decode? program, Variables.sound_of_decode? room variableStore⟩

end Image
end HomeBasic
