import HomeBasic.Attempt
import HomeBasic.Config
import HomeBasic.Console
import HomeBasic.Function
import HomeBasic.Number.Operator
import HomeBasic.Value
import HomeBasic.Variables

/-!
# Calls of built-in functions

What the functions yield. They read the memory, the clock and random numbers, and
change nothing else of the machine. A result that cannot be represented is an
arithmetic overflow.
-/

namespace HomeBasic

/-- What expressions may read. -/
structure Environment where
  config : Config
  variableStore : Variables
  memory : Array Code
  /-- The time on the clock when the machine was started. -/
  started : Nat
  /-- The fault of a `VAL` of a text that is no number. -/
  valFault : Fault := .syntaxError

namespace Environment

/-- An environment with nothing in it, for checking a line. -/
def blank (config : Config) : Environment :=
  { config
    variableStore := Variables.empty config.word config.variablesSize
    memory := #[]
    started := 0 }

/-- The byte at an address. -/
def peek (environment : Environment) (address : Int) : Except Fault Code :=
  if 0 ≤ address then
    match environment.memory[address.toNat]? with
    | some byte => .ok byte
    | none => .error .subscriptOutOfRange
  else
    .error .subscriptOutOfRange

end Environment

namespace Function

variable {H : Type} [Console H]

/-- What a function yields when only types matter. -/
def placeholder (function : Function) : Value :=
  if function.returnsText then .text [] else .number 0

/-- What a function yields for an argument. -/
def call (environment : Environment) (function : Function) (argument : Value) :
    Attempt H Value :=
  let size := environment.config.word
  match function, argument with
  | .abs, .number value => pure (.number (Operator.absolute size value))
  | .sgn, .number value => pure (.number value.sign)
  | .rnd, .number largest =>
      if largest < 1 then throw .arithmeticOverflow
      else do return .number (← Attempt.ofUpdate (Console.random largest))
  | .peek, .number address => do
      let byte ← Attempt.ofExcept (environment.peek address)
      return .number byte.toNat
  | .len, .text codes => do return .number (← Attempt.ofExcept (size.checked codes.length))
  | .code, .text codes => pure (.number (codes.headD 0).toNat)
  | .val, .text codes =>
      match Decimal.parse? size codes with
      | some value => pure (.number value)
      | none => throw environment.valFault
  | .chr, .number value =>
      -- A quote would end a stored text too early.
      if value < 0 ∨ 0x3F < value ∨ value = Code.quote.toNat then throw .arithmeticOverflow
      else pure (.text [UInt8.ofNat value.toNat])
  | .str, .number value => pure (.text (Decimal.format value))
  | .time, _ => do
      let seconds := (Console.clock (← get) - environment.started) / 1000
      return .number (min (seconds : Int) size.maximum)
  | _, _ => throw .syntaxError

end Function

end HomeBasic
