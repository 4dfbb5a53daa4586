import HomeBasic.Config
import HomeBasic.Program
import HomeBasic.Slot.Store
import HomeBasic.Variables.Packing

/-!
# Images

An image is what a save slot holds: the packed program filled up to the size of
its store, then the packed variables filled up to theirs.
-/

namespace HomeBasic

/-- A saved program with its variables. -/
structure Image where
  program : Program
  variableStore : Variables
  deriving DecidableEq, Repr

namespace Image

/-- Bytes cut off or filled up with zeros to a length. -/
def fit (length : Nat) (bytes : List Code) : List Code :=
  bytes.take length ++ List.replicate (length - bytes.length) 0

@[simp] theorem length_fit (length : Nat) (bytes : List Code) :
    (fit length bytes).length = length := by
  simp [fit]
  omega

/-- The block that holds an image. -/
def encode (config : Config) (image : Image) : List Code :=
  fit config.blockSize
    (fit config.programSize image.program.bytes ++ image.variableStore.encode)

/-- A block has the size of both stores. -/
@[simp] theorem length_encode (config : Config) (image : Image) :
    (image.encode config).length = config.blockSize := by
  simp [encode]

/-- The image that a block holds, if it has the right size and both stores are well formed. -/
def decode (config : Config) (block : List Code) : Except SlotFault Image :=
  if block.length ≠ config.blockSize then
    .error .corrupt
  else
    match Program.decode? config.programSize (block.take config.programSize) with
    | none => .error .corrupt
    | some program =>
        match Variables.decode? config.word config.variablesSize
            (block.drop config.programSize) with
        | none => .error .corrupt
        | some variableStore => .ok ⟨program, variableStore⟩

/-- The lines of the built-in program. -/
def builtinLines : List Line :=
  ["10 REM SQUARES", "20 PRINT \"N\",\"N**2\"", "30 FOR N=1 TO 10", "40 PRINT N,N**2",
    "50 NEXT N"].map Line.ofText

/-- Stores lines in order, up to the first that has no room. -/
def storeLines : List Line → Program → Program
  | [], program => program
  | line :: rest, program =>
      match program.insert line.number line.body with
      | .ok longer => storeLines rest longer
      | .error _ => program

/-- The block that slot 0 holds. -/
def builtin (config : Config) : List Code :=
  let program := storeLines builtinLines (Program.empty config.programSize)
  encode config ⟨program, Variables.empty config.word config.variablesSize⟩

end Image
end HomeBasic
