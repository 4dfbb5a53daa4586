/-!
# Checksums

The cyclic redundancy check of 32 bits with the reflected polynomial
`0xEDB88320`, started and ended with an exclusive or of all ones.
-/

namespace HomeBasic
namespace Checksum

/-- The polynomial, lowest power first. -/
def polynomial : UInt32 := 0xEDB88320

/-- Moves the register on by a bit. -/
def shift (register : UInt32) : UInt32 :=
  if register &&& 1 = 1 then (register >>> 1) ^^^ polynomial else register >>> 1

/-- Moves the register on by so many bits. -/
def shiftBy : Nat → UInt32 → UInt32
  | 0, register => register
  | count + 1, register => shiftBy count (shift register)

/-- Takes a byte into the register. -/
def addByte (register : UInt32) (byte : UInt8) : UInt32 :=
  shiftBy 8 (register ^^^ byte.toUInt32)

/-- The checksum of bytes. -/
def crc32 (bytes : List UInt8) : UInt32 :=
  bytes.foldl addByte 0xFFFFFFFF ^^^ 0xFFFFFFFF

@[simp] theorem crc32_nil : crc32 [] = 0 := rfl

/-- The value that the check is known by. -/
theorem crc32_digits :
    crc32 [0x31, 0x32, 0x33, 0x34, 0x35, 0x36, 0x37, 0x38, 0x39] = 0xCBF43926 := by
  decide +kernel

end Checksum
end HomeBasic
