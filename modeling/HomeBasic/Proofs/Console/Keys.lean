import HomeBasic.Proofs.Desk.Level
import HomeBasic.Proofs.Expression.Mirrored
import HomeBasic.Recorder

/-!
# The keys that wait at a console

A console may hold keys that are still to come, in the order they were pressed in. Taking a
key takes the first of them, and whatever else is asked of the console while an entry is typed
leaves them there (`Console.Queued`).

An expression reads no key: it takes random numbers from the console and nothing else. So what
random numbers leave alone is left alone by an evaluation, however it ends.

Main statements: `Expression.sustains_console`, and a recorder holds its keys in this way
(`Recorder.queued_keys`).
-/

namespace HomeBasic

open Attempt (Mirrored Sustains)

/-! ## Keys still to come -/

/-- The keys of a console that are still to come, the next one first. -/
structure Console.Queued {H : Type} [Console H] (keys : H → List Key) : Prop where
  first : ∀ console, (Console.nextKey console).1 = (keys console).head?
  others : ∀ console, keys (Console.nextKey console).2 = (keys console).tail
  showEditLine : ∀ codes console, keys (Console.showEditLine codes console) = keys console
  showReport : ∀ report console, keys (Console.showReport report console) = keys console
  breakHeld : ∀ console, keys (Console.breakHeld console).2 = keys console
  random : ∀ largest console, keys (Console.random largest console).2 = keys console

theorem Recorder.queued_keys {S : Type} [SlotStore S] :
    Console.Queued (Recorder.keys : Recorder S → List Key) where
  first recorder := by cases keys : recorder.keys <;> simp [Console.nextKey, keys]
  others recorder := by cases keys : recorder.keys <;> simp [Console.nextKey, keys]
  showEditLine _ _ := rfl
  showReport _ _ := rfl
  breakHeld _ := rfl
  random _ _ := rfl

/-! ## What an expression takes from the console -/

variable {H : Type} [Console H]

/-- A function takes a random number from the console, or nothing. -/
theorem Function.console_call (function : Function) (environment : Environment)
    (argument : Value) (console : H) :
    (function.call environment argument console).2 = console ∨
      ∃ largest, (function.call environment argument console).2 =
        (Console.random largest console).2 := by
  cases function <;> rcases argument with value | codes
  case rnd.number =>
    unfold call
    dsimp only
    split
    · exact .inl rfl
    · exact .inr ⟨value, rfl⟩
  case peek.number =>
    unfold call
    dsimp only
    cases environment.peek value <;> exact .inl rfl
  case len.text =>
    unfold call
    dsimp only
    cases environment.config.word.checked codes.length <;> exact .inl rfl
  case val.text =>
    unfold call
    dsimp only
    cases Decimal.parse? environment.config.word codes <;> exact .inl rfl
  case chr.number =>
    unfold call
    dsimp only
    split <;> exact .inl rfl
  all_goals exact .inl rfl

namespace Expression

variable {holds : H → Prop} (environment : Environment) (mode : Mode)
  (random : ∀ largest console, holds console → holds (Console.random largest console).2)
include random

theorem sustains_reply_console (function : Function) (argument : Value) :
    Sustains holds (reply environment mode function argument) fun _ => True := by
  cases mode with
  | check => exact Attempt.sustains_pure trivial
  | execute =>
      refine Attempt.sustains_of_kept fun console start => ?_
      change holds (function.call environment argument console).2
      rcases function.console_call environment argument console with same | ⟨largest, drawn⟩
      · rwa [same]
      · rw [drawn]
        exact random largest console start

theorem sustains_console :
    Sustains (fun desk : Desk H => holds desk.console) (evaluate environment mode)
      fun _ => True := by
  have alike : Alike (fun first second : H => second = first ∧ holds first) environment
      environment mode :=
    { config := rfl
      fetched := fun _ _ _ => rfl
      fold := fun _ _ => rfl
      reply := by
        rintro function argument console _ ⟨rfl, start⟩
        exact ⟨rfl, rfl, (sustains_reply_console environment mode random function
          argument).kept start⟩ }
  refine Attempt.sustains_of_kept fun desk start => ?_
  have mirrored := @Desk.level_of_twins _ _ _ True _ _ _
    fun course => mirrored_evaluateWithin alike environment.config.maxNesting
  exact (mirrored desk desk ⟨⟨rfl, rfl, fun _ => rfl⟩, rfl, rfl, start⟩).2.console.2

end Expression
end HomeBasic
