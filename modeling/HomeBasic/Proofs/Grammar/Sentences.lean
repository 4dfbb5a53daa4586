import HomeBasic.Config
import HomeBasic.Proofs.Grammar.Expressions

/-!
# The sentences of the language

A sentence is one statement: its word and what goes with it, where the word of an assignment
may be left out, and one that follows an `IF` may be of any kind itself. Remarks hold anything.

Main definition: `Sentence`.
-/

namespace HomeBasic
namespace Grammar

/-- The codes are an expression of a type, and a check has levels and room enough for it. -/
def Phrase (config : Config) (isText : Bool) (codes : List Code) : Prop :=
  ∃ expr : Expr, expr.Fits config.word config.maxNesting config.calculatorDepth ∧
    expr.isText = isText ∧ codes = expr.codes

/-- The codes are a place to assign to that holds values of a type. -/
inductive Place (config : Config) : (isText : Bool) → List Code → Prop
  | number {name : Name} : IsName name → Place config false name
  | text {name : Name} : IsName name → Place config true (name ++ [Code.dollar])
  | element {name : Name} {index : List Code} :
      IsName name → Phrase config false index →
      Place config false (name ++ Code.leftParen :: (index ++ [Code.rightParen]))

/-- The codes are an item of a `PRINT`. -/
inductive Item (config : Config) : List Code → Prop
  | value {isText : Bool} {codes : List Code} : Phrase config isText codes → Item config codes
  | place {row column : List Code} :
      Phrase config false row → Phrase config false column →
      Item config (Keyword.«at».code :: (row ++ Code.comma :: column))
  | tab {column : List Code} :
      Phrase config false column → Item config (Keyword.tab.code :: column)

/-- The codes are items with separators among them, any number, and one behind every item. -/
inductive Items (config : Config) : List Code → Prop
  | nil : Items config []
  | separator {code : Code} {rest : List Code} :
      code = Code.semicolon ∨ code = Code.comma → Items config rest → Items config (code :: rest)
  | last {item : List Code} : Item config item → Items config item
  | item {item rest : List Code} {code : Code} :
      Item config item → code = Code.semicolon ∨ code = Code.comma → Items config rest →
      Items config (item ++ code :: rest)

/-- The codes are expressions with commas between them, at least one. -/
inductive Values (config : Config) : List Code → Prop
  | last {isText : Bool} {codes : List Code} : Phrase config isText codes → Values config codes
  | more {isText : Bool} {codes rest : List Code} :
      Phrase config isText codes → Values config rest → Values config (codes ++ Code.comma :: rest)

/-- The codes go with a word, which is not `IF`. -/
inductive Complement (config : Config) : StatementWord → List Code → Prop
  | nothing {word : StatementWord} :
      word ∈ [.list, .run, .restore, .new, .clear, .cont, .return, .stop, .cls] →
      Complement config word []
  | number {word : StatementWord} {codes : List Code} :
      word ∈ [.list, .run, .restore, .save, .load, .goto, .gosub, .wait] →
      Phrase config false codes → Complement config word codes
  | assignment {isText : Bool} {place value : List Code} :
      Place config isText place → Phrase config isText value →
      Complement config .let (place ++ Code.equals :: value)
  | place {word : StatementWord} {isText : Bool} {codes : List Code} :
      word ∈ [.input, .read] → Place config isText codes → Complement config word codes
  | next {name : Name} : IsName name → Complement config .next name
  | print {items : List Code} : Items config items → Complement config .print items
  | loop {name : Name} {start limit : List Code} :
      IsName name → Phrase config false start → Phrase config false limit →
      Complement config .for
        (name ++ Code.equals :: (start ++ Keyword.«to».code :: limit))
  | remark (text : List Code) : Complement config .rem text
  | dimension {name : Name} {size : List Code} :
      IsName name → Phrase config false size →
      Complement config .dim (name ++ Code.leftParen :: (size ++ [Code.rightParen]))
  | data {values : List Code} : Values config values → Complement config .data values
  | pair {word : StatementWord} {first second : List Code} :
      word ∈ [.poke, .beep] → Phrase config false first → Phrase config false second →
      Complement config word (first ++ Code.comma :: second)

theorem Complement.items {config : Config} {codes : List Code}
    (complement : Complement config .print codes) : Items config codes := by
  cases complement
  case print items => exact items
  all_goals simp_all

theorem Complement.values {config : Config} {codes : List Code}
    (complement : Complement config .data codes) : Values config codes := by
  cases complement
  case data values => exact values
  all_goals simp_all

/-- The codes are a statement of the language. -/
inductive Sentence (config : Config) : List Code → Prop
  | worded {word : StatementWord} {codes : List Code} :
      Complement config word codes → Sentence config (word.code :: codes)
  | assignment {codes : List Code} : Complement config .let codes → Sentence config codes
  | branch {condition rest : List Code} :
      Phrase config false condition → Sentence config rest →
      Sentence config (StatementWord.if.code :: (condition ++ Keyword.then.code :: rest))

end Grammar
end HomeBasic
