import HomeBasic.Bytes
import HomeBasic.Fault

/-!
# Machine integers

A machine integer is a signed word of sixteen or thirty-two bits. Numbers are
kept as integers; `WordSize.Fits` says which of them a word can hold, and a
result that does not fit is an arithmetic overflow.
-/

namespace HomeBasic

/-- The two sizes of machine word. -/
inductive WordSize
  | short
  | long
  deriving DecidableEq, Repr, Inhabited

namespace WordSize

/-- The number of bits in a word. -/
def bits : WordSize → Nat
  | short => 16
  | long => 32

/-- The number of bytes in a stored word. -/
def byteCount : WordSize → Nat
  | short => 2
  | long => 4

/-- The largest integer of a word. -/
def maximum : WordSize → Int
  | short => 32767
  | long => 2147483647

/-- The smallest integer of a word. -/
def minimum : WordSize → Int
  | short => -32768
  | long => -2147483648

/-- The number of different words. -/
def modulus : WordSize → Nat
  | short => 65536
  | long => 4294967296

/-- The integers a word can hold. -/
def Fits (size : WordSize) (value : Int) : Prop :=
  size.minimum ≤ value ∧ value ≤ size.maximum

instance (size : WordSize) (value : Int) : Decidable (size.Fits value) :=
  inferInstanceAs (Decidable (_ ∧ _))

/-- An exact result, or an overflow if no word holds it. -/
def checked (size : WordSize) (value : Int) : Except Fault Int :=
  if size.Fits value then .ok value else .error .arithmeticOverflow

/-- A result is left as it is exactly when a word holds it. -/
theorem checked_eq_ok_iff {size : WordSize} {value result : Int} :
    size.checked value = .ok result ↔ size.Fits value ∧ result = value := by
  unfold checked
  split <;> simp_all [eq_comm]

theorem checked_eq_error_iff {size : WordSize} {value : Int} {fault : Fault} :
    size.checked value = .error fault ↔ ¬ size.Fits value ∧ fault = .arithmeticOverflow := by
  unfold checked
  split <;> simp_all [eq_comm]

/-- The word that agrees with an integer in all its bits. -/
def wrap (size : WordSize) (value : Int) : Int :=
  value.bmod size.modulus

/-- An integer that a word holds is that word. -/
theorem wrap_of_fits {size : WordSize} {value : Int} (fits : size.Fits value) :
    size.wrap value = value := by
  cases size <;>
    exact Int.bmod_eq_of_le (by simp only [Fits, minimum, modulus] at *; omega)
      (by simp only [Fits, maximum, modulus] at *; omega)

/-- The bits of a word, read as a natural number. -/
def toNat (size : WordSize) (value : Int) : Nat :=
  (value % size.modulus).toNat

/-- A word as it is stored. -/
def toBytes (size : WordSize) (value : Int) : List UInt8 :=
  Bytes.toLittleEndian size.byteCount (size.toNat value)

/-- The word that stored bytes denote. -/
def ofBytes (size : WordSize) (bytes : List UInt8) : Int :=
  size.wrap (Bytes.ofLittleEndian bytes)

@[simp] theorem length_toBytes (size : WordSize) (value : Int) :
    (size.toBytes value).length = size.byteCount := by
  simp [toBytes]

/-- A stored word reads back. -/
theorem ofBytes_toBytes {size : WordSize} {value : Int} (fits : size.Fits value) :
    size.ofBytes (size.toBytes value) = value := by
  have bytes : (Bytes.ofLittleEndian (size.toBytes value) : Int) = value % size.modulus := by
    simp only [toBytes, toNat, Bytes.ofLittleEndian_toLittleEndian]
    cases size <;> simp only [byteCount, modulus, Bytes.span] <;> omega
  rw [ofBytes, bytes, wrap, Int.emod_bmod]
  exact wrap_of_fits fits

/-- Stored bytes are those of the word that they denote. -/
theorem toBytes_ofBytes {size : WordSize} {bytes : List UInt8}
    (length : bytes.length = size.byteCount) : size.toBytes (size.ofBytes bytes) = bytes := by
  have small := Bytes.ofLittleEndian_lt bytes
  have bits : size.toNat (size.ofBytes bytes) = Bytes.ofLittleEndian bytes := by
    rw [toNat, ofBytes, wrap, Int.bmod_emod]
    rw [length] at small
    cases size <;> simp only [byteCount, modulus, Bytes.span] at * <;> omega
  rw [toBytes, bits, ← length, Bytes.toLittleEndian_ofLittleEndian]

end WordSize
end HomeBasic
