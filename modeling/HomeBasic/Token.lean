import HomeBasic.Code

/-!
# Tokens

Statement words and keywords are stored as one byte each, at the top of the
byte range. Main statements: a token is recovered from its byte (`ofCode?_code`)
and from its spelling (`ofSpelling?_spelling`).
-/

namespace HomeBasic

/-- The words that open a statement. -/
inductive StatementWord
  | list
  | run
  | new
  | clear
  | cont
  | save
  | load
  | «let»
  | print
  | input
  | «if»
  | goto
  | gosub
  | «return»
  | «for»
  | next
  | stop
  | rem
  | dim
  | data
  | read
  | restore
  | poke
  | beep
  | wait
  | cls
  deriving DecidableEq, Repr

/-- The words and symbols used inside a statement. -/
inductive Keyword
  | «at»
  | tab
  | «then»
  | «to»
  | not
  | and
  | or
  | power
  | lessEqual
  | greaterEqual
  | notEqual
  deriving DecidableEq, Repr

namespace StatementWord

/-- Every statement word, in the order of its byte. -/
def all : List StatementWord :=
  [list, run, new, clear, cont, save, load, «let», print, input, «if», goto, gosub,
    «return», «for», next, stop, rem, dim, data, read, restore, poke, beep, wait, cls]

/-- The letters of a statement word. -/
def letters : StatementWord → List Char
  | list => ['L', 'I', 'S', 'T']
  | run => ['R', 'U', 'N']
  | new => ['N', 'E', 'W']
  | clear => ['C', 'L', 'E', 'A', 'R']
  | cont => ['C', 'O', 'N', 'T']
  | save => ['S', 'A', 'V', 'E']
  | load => ['L', 'O', 'A', 'D']
  | «let» => ['L', 'E', 'T']
  | print => ['P', 'R', 'I', 'N', 'T']
  | input => ['I', 'N', 'P', 'U', 'T']
  | «if» => ['I', 'F']
  | goto => ['G', 'O', 'T', 'O']
  | gosub => ['G', 'O', 'S', 'U', 'B']
  | «return» => ['R', 'E', 'T', 'U', 'R', 'N']
  | «for» => ['F', 'O', 'R']
  | next => ['N', 'E', 'X', 'T']
  | stop => ['S', 'T', 'O', 'P']
  | rem => ['R', 'E', 'M']
  | dim => ['D', 'I', 'M']
  | data => ['D', 'A', 'T', 'A']
  | read => ['R', 'E', 'A', 'D']
  | restore => ['R', 'E', 'S', 'T', 'O', 'R', 'E']
  | poke => ['P', 'O', 'K', 'E']
  | beep => ['B', 'E', 'E', 'P']
  | wait => ['W', 'A', 'I', 'T']
  | cls => ['C', 'L', 'S']

/-- The byte that stands for a statement word. -/
def code : StatementWord → Code
  | list => 0xE6
  | run => 0xE7
  | new => 0xE8
  | clear => 0xE9
  | cont => 0xEA
  | save => 0xEB
  | load => 0xEC
  | «let» => 0xED
  | print => 0xEE
  | input => 0xEF
  | «if» => 0xF0
  | goto => 0xF1
  | gosub => 0xF2
  | «return» => 0xF3
  | «for» => 0xF4
  | next => 0xF5
  | stop => 0xF6
  | rem => 0xF7
  | dim => 0xF8
  | data => 0xF9
  | read => 0xFA
  | restore => 0xFB
  | poke => 0xFC
  | beep => 0xFD
  | wait => 0xFE
  | cls => 0xFF

end StatementWord

namespace Keyword

/-- Every keyword, in the order of its byte. -/
def all : List Keyword :=
  [«at», tab, «then», «to», not, and, or, power, lessEqual, greaterEqual, notEqual]

/-- The characters of a keyword. -/
def letters : Keyword → List Char
  | «at» => ['A', 'T']
  | tab => ['T', 'A', 'B']
  | «then» => ['T', 'H', 'E', 'N']
  | «to» => ['T', 'O']
  | not => ['N', 'O', 'T']
  | and => ['A', 'N', 'D']
  | or => ['O', 'R']
  | power => ['*', '*']
  | lessEqual => ['<', '=']
  | greaterEqual => ['>', '=']
  | notEqual => ['<', '>']

/-- The byte that stands for a keyword. -/
def code : Keyword → Code
  | «at» => 0xDB
  | tab => 0xDC
  | «then» => 0xDD
  | «to» => 0xDE
  | not => 0xDF
  | and => 0xE0
  | or => 0xE1
  | power => 0xE2
  | lessEqual => 0xE3
  | greaterEqual => 0xE4
  | notEqual => 0xE5

/-- The keyword is written with symbols and not with letters. -/
def isSymbol : Keyword → Bool
  | power | lessEqual | greaterEqual | notEqual => true
  | _ => false

end Keyword

/-- A word or symbol that is stored as one byte. -/
inductive Token
  | word (word : StatementWord)
  | keyword (keyword : Keyword)
  deriving DecidableEq, Repr

namespace Token

/-- Every token, words first. -/
def all : List Token :=
  StatementWord.all.map word ++ Keyword.all.map keyword

/-- The characters a token is written with. -/
def letters : Token → List Char
  | word w => w.letters
  | keyword k => k.letters

/-- The text a token is written with. -/
def spelling (token : Token) : String :=
  String.ofList token.letters

/-- The byte that stands for a token. -/
def code : Token → Code
  | word w => w.code
  | keyword k => k.code

/-- The codes of a token's spelling. -/
def spellingCodes (token : Token) : List Code :=
  token.letters.filterMap Code.ofChar?

/-- The token is written with letters, and so listed with a space on either side. -/
def isSpaced : Token → Bool
  | word _ => true
  | keyword k => !k.isSymbol

/-- The token that a byte stands for. -/
def ofCode? (code : Code) : Option Token :=
  all.find? fun token => token.code == code

/-- The token with a spelling in codes. -/
def ofCodes? (codes : List Code) : Option Token :=
  all.find? fun token => token.spellingCodes == codes

/-- The token with a spelling. -/
def ofSpelling? (text : String) : Option Token :=
  all.find? fun token => token.letters == text.toList

/-- The bytes from here up are no display codes, though the lowest of them are no tokens either. -/
def isTokenByte (code : Code) : Bool :=
  0xD4 ≤ code

theorem mem_all (token : Token) : token ∈ all := by
  cases token with
  | word w => cases w <;> decide
  | keyword k => cases k <;> decide

@[simp] theorem ofCode?_code (token : Token) : ofCode? token.code = some token := by
  cases token with
  | word w => cases w <;> rfl
  | keyword k => cases k <;> rfl

/-- A byte stands for a token exactly when it is the token's byte. -/
theorem ofCode?_eq_some_iff {code : Code} {token : Token} :
    ofCode? code = some token ↔ token.code = code := by
  constructor
  · intro found
    simpa using List.find?_some found
  · rintro rfl
    exact ofCode?_code token

@[simp] theorem ofSpelling?_spelling (token : Token) :
    ofSpelling? token.spelling = some token := by
  simp only [ofSpelling?, spelling, String.toList_ofList]
  cases token with
  | word w => cases w <;> rfl
  | keyword k => cases k <;> rfl

@[simp] theorem ofCodes?_spellingCodes (token : Token) :
    ofCodes? token.spellingCodes = some token := by
  cases token with
  | word w => cases w <;> decide
  | keyword k => cases k <;> decide

end Token
end HomeBasic
