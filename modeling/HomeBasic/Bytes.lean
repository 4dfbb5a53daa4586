/-!
# Stored bytes

Stored numbers are little-endian; other things are stored up to a mark that ends
them. Main statements: a number is read back modulo its width
(`ofLittleEndian_toLittleEndian`), bytes are the writing of the number that they
denote (`toLittleEndian_ofLittleEndian`), and what stands in front of a mark ends
at the first there is (`findIdx?_first`).
-/

namespace HomeBasic
namespace Bytes

/-- The low bytes of a number, least significant first. -/
def toLittleEndian : Nat → Nat → List UInt8
  | 0, _ => []
  | count + 1, value => UInt8.ofNat value :: toLittleEndian count (value / 256)

/-- The number that bytes denote, least significant first. -/
def ofLittleEndian : List UInt8 → Nat
  | [] => 0
  | byte :: rest => byte.toNat + 256 * ofLittleEndian rest

/-- How many numbers so many bytes tell apart. -/
def span : Nat → Nat
  | 0 => 1
  | count + 1 => 256 * span count

@[simp] theorem length_toLittleEndian (count value : Nat) :
    (toLittleEndian count value).length = count := by
  induction count generalizing value with
  | zero => rfl
  | succ count inductionHypothesis => simp [toLittleEndian, inductionHypothesis]

theorem span_pos (count : Nat) : 0 < span count := by
  induction count with
  | zero => decide
  | succ count inductionHypothesis =>
      simp only [span]
      omega

/-- A written number reads back, up to what its bytes can tell apart. -/
theorem ofLittleEndian_toLittleEndian (count value : Nat) :
    ofLittleEndian (toLittleEndian count value) = value % span count := by
  induction count generalizing value with
  | zero => simp [toLittleEndian, ofLittleEndian, span, Nat.mod_one]
  | succ count inductionHypothesis =>
      simp only [toLittleEndian, ofLittleEndian, inductionHypothesis, span]
      rw [Nat.mod_mul]
      simp

/-- Bytes that were read as a number are written again. -/
theorem toLittleEndian_ofLittleEndian (bytes : List UInt8) :
    toLittleEndian bytes.length (ofLittleEndian bytes) = bytes := by
  induction bytes with
  | nil => rfl
  | cons byte rest inductionHypothesis =>
      have byteBound := byte.toNat_lt
      have low : UInt8.ofNat (ofLittleEndian (byte :: rest)) = byte := by
        apply UInt8.toNat_inj.mp
        rw [UInt8.toNat_ofNat', ofLittleEndian]
        omega
      have high : ofLittleEndian (byte :: rest) / 256 = ofLittleEndian rest := by
        rw [ofLittleEndian]
        omega
      rw [List.length_cons, toLittleEndian, low, high, inductionHypothesis]

theorem ofLittleEndian_lt (bytes : List UInt8) :
    ofLittleEndian bytes < span bytes.length := by
  induction bytes with
  | nil => simp [ofLittleEndian, span]
  | cons byte rest inductionHypothesis =>
      have byteBound := byte.toNat_lt
      simp only [ofLittleEndian, List.length_cons, span]
      omega

/-- A mark behind bytes that do not hold it is the first there is. -/
theorem findIdx?_first {mark : UInt8} {bytes : List UInt8} (absent : mark ∉ bytes)
    (rest : List UInt8) :
    (bytes ++ mark :: rest).findIdx? (· == mark) = some bytes.length := by
  induction bytes with
  | nil => simp [List.findIdx?_cons]
  | cons byte bytes inductionHypothesis =>
      simp only [List.mem_cons, not_or] at absent
      have different : (byte == mark) = false := by
        simpa using fun equal => absent.1 equal.symm
      simp [List.findIdx?_cons, different, inductionHypothesis absent.2]

/-- Up to the first mark there is none, and then it stands there. -/
theorem split_at_mark {mark : UInt8} {bytes : List UInt8} {length : Nat}
    (found : bytes.findIdx? (· == mark) = some length) :
    mark ∉ bytes.take length ∧
      bytes = bytes.take length ++ mark :: bytes.drop (length + 1) := by
  induction bytes generalizing length with
  | nil => cases found
  | cons byte bytes inductionHypothesis =>
      rw [List.findIdx?_cons] at found
      cases same : byte == mark with
      | true =>
          rw [same] at found
          cases found
          rw [eq_of_beq same]
          simp
      | false =>
          rw [same] at found
          simp only [Bool.false_eq_true, if_false, Option.map_eq_some_iff] at found
          obtain ⟨length, later, rfl⟩ := found
          obtain ⟨absent, split⟩ := inductionHypothesis later
          have different : ¬mark = byte := fun equal => by simp [equal] at same
          refine ⟨?_, ?_⟩
          · simp [different, absent]
          · rw [List.take_succ_cons, List.drop_succ_cons, List.cons_append, ← split]

end Bytes
end HomeBasic
