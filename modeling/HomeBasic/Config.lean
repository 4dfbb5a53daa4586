import HomeBasic.Number.WordSize

/-!
# Dimensions of a machine

Every store is a region of fixed size; running out of one is out of memory.
-/

namespace HomeBasic

/-- The dimensions of a machine. -/
structure Config where
  /-- The size of a number. -/
  word : WordSize := .long
  /-- Columns of the display. -/
  width : Nat := 32
  /-- Rows of the display. -/
  height : Nat := 22
  /-- Bytes in the program store, its end included. -/
  programSize : Nat := 4096
  /-- Bytes in the variable store, its end included. -/
  variablesSize : Nat := 2048
  /-- Pending operations of all the expressions being evaluated. -/
  calculatorDepth : Nat := 32
  /-- Outstanding returns from subroutines. -/
  returnDepth : Nat := 16
  /-- Expressions being evaluated inside one another. -/
  maxNesting : Nat := 16
  /-- Bytes within reach of `PEEK` and `POKE`. -/
  memorySize : Nat := 256
  /-- Milliseconds between looks at the break key while waiting. -/
  breakInterval : Nat := 20
  /-- Save slots, the built-in program in slot 0 among them. -/
  slotCount : Nat := 10
  deriving DecidableEq, Repr, Inhabited

namespace Config

/-- Bytes in a saved image: the program store and then the variable store. -/
def blockSize (config : Config) : Nat :=
  config.programSize + config.variablesSize

end Config
end HomeBasic
