/-!
# Display codes

The machine shows 64 characters, the ASCII characters from space to underscore
moved down to start at zero. Setting the top bit of a code shows it inverted.
Tokens live at the top of the byte range, and one byte ends every line.

Main statements: a shown character reads back as its code
(`ofChar?_toChar`), and decoding is one character a code (`length_toList_decode`).
-/

namespace HomeBasic

/-- A byte of the machine: a display code, an inverted code, a token, or the end of a line. -/
abbrev Code := UInt8

namespace Code

/-! ## Codes with a meaning in the language -/

def space : Code := 0x00
def quote : Code := 0x02
def dollar : Code := 0x04
def leftParen : Code := 0x08
def rightParen : Code := 0x09
def star : Code := 0x0A
def plus : Code := 0x0B
def comma : Code := 0x0C
def minus : Code := 0x0D
def dot : Code := 0x0E
def slash : Code := 0x0F
def zero : Code := 0x10
def nine : Code := 0x19
def semicolon : Code := 0x1B
def less : Code := 0x1C
def equals : Code := 0x1D
def greater : Code := 0x1E
def question : Code := 0x1F
def letterA : Code := 0x21
def letterZ : Code := 0x3A

/-- The end of every line, in the program store and in the edit line alike. -/
def newline : Code := 0x76

/-- The bit that shows a code inverted. -/
def inverse : Code := 0x80

/-! ## Characters -/

/-- The code of a typed character; lower case folds to upper case. -/
def ofChar? (character : Char) : Option Code :=
  let upper := character.toUpper
  if ' ' ≤ upper ∧ upper ≤ '_' then some (UInt8.ofNat (upper.toNat - 0x20)) else none

/-- The character a code shows, inverted or not. -/
def toChar (code : Code) : Char :=
  Char.ofNat ((code &&& 0x3F).toNat + 0x20)

/-- The codes of a text, without the characters the machine cannot show. -/
def encode (text : String) : List Code :=
  text.toList.filterMap ofChar?

/-- The text that a run of codes shows. -/
def decode (codes : List Code) : String :=
  String.ofList (codes.map toChar)

/-! ## Classes of codes -/

/-- A display code shown inverted. -/
def isInverse (code : Code) : Bool :=
  code &&& 0xC0 == inverse

/-- One of the letters from A to Z. -/
def isLetter (code : Code) : Bool :=
  letterA ≤ code && code ≤ letterZ

/-- One of the decimal digits. -/
def isDigit (code : Code) : Bool :=
  zero ≤ code && code ≤ nine

/-- A letter or a digit. -/
def isAlphanumeric (code : Code) : Bool :=
  isLetter code || isDigit code

/-- The codes that may follow the first letter of a name. -/
def isNameCode (code : Code) : Bool :=
  isAlphanumeric code || code == dot

theorem isNameCode_of_isLetter {code : Code} (letter : isLetter code = true) :
    isNameCode code = true := by
  rw [isNameCode, isAlphanumeric, letter, Bool.true_or, Bool.true_or]

theorem isNameCode_of_isDigit {code : Code} (digit : isDigit code = true) :
    isNameCode code = true := by
  rw [isNameCode, isAlphanumeric, digit, Bool.or_true, Bool.true_or]

/-- The number a digit stands for. -/
def digitValue (code : Code) : Nat :=
  code.toNat - zero.toNat

/-! ## Reading back -/

@[simp] theorem toList_decode (codes : List Code) :
    (decode codes).toList = codes.map toChar := by
  simp [decode]

/-- Each code shows one character. -/
theorem length_toList_decode (codes : List Code) :
    (decode codes).toList.length = codes.length := by
  simp

/-- A display code is the code of the character it shows. -/
theorem ofChar?_toChar (code : Code) (shown : code < 0x40) :
    ofChar? (toChar code) = some code := by
  have every : ∀ value : Fin 64,
      ofChar? (toChar (UInt8.ofNat value.val)) = some (UInt8.ofNat value.val) := by
    decide
  have bound : code.toNat < 64 := by
    simpa using UInt8.lt_iff_toNat_lt.mp shown
  simpa using every ⟨code.toNat, bound⟩

/-- Text made of display codes comes back from its characters. -/
theorem encode_decode (codes : List Code) (shown : ∀ code ∈ codes, code < 0x40) :
    encode (decode codes) = codes := by
  induction codes with
  | nil => simp [encode]
  | cons code rest inductionHypothesis =>
      have restShown : ∀ other ∈ rest, other < 0x40 :=
        fun other member => shown other (List.mem_cons_of_mem _ member)
      have restEqual := inductionHypothesis restShown
      simp only [encode, toList_decode] at restEqual ⊢
      simp [ofChar?_toChar code (shown code (by simp)), restEqual]

end Code

/-- The codes of a name, without any `$` or bracket after it. -/
abbrev Name := List Code

end HomeBasic
