import HomeBasic.Proofs.Statement.Mirrored

/-!
# Consoles that answer alike

Two consoles are kindred when, asked for the same, they give the same answers and go on to
belong together (`Console.Kindred`). What is done with them then comes to the same on both
sides: what is printed, the calls of functions, and the lines that are carried out. A report
is left out here, for it may change how they belong together.

Main statement: lines are carried out alike at kindred consoles (`Statement.alike_execute`).
-/

namespace HomeBasic

open Attempt (Mirrored mirrored_ofExcept mirrored_pure mirrored_throw)

namespace Attempt

variable {σ τ α : Type} {meet : σ → τ → Prop}

theorem mirrored_ofUpdate {update : σ → α × σ} {other : τ → α × τ}
    (answers : ∀ state opposite, meet state opposite →
      (other opposite).1 = (update state).1 ∧ meet (update state).2 (other opposite).2) :
    Mirrored meet (ofUpdate update) (ofUpdate other) meet :=
  fun state opposite meets =>
    ⟨congrArg Except.ok (answers state opposite meets).1, (answers state opposite meets).2⟩

theorem mirrored_orFault {fault : Fault} {update : σ → Option σ} {other : τ → Option τ}
    (answers : ∀ state opposite, meet state opposite →
      Option.Rel meet (update state) (other opposite)) :
    Mirrored meet (orFault fault update) (orFault fault other) meet := by
  intro state opposite meets
  have answers := answers state opposite meets
  unfold orFault
  generalize update state = changed at answers ⊢
  generalize other opposite = moved at answers ⊢
  cases answers with
  | some meets => exact ⟨rfl, meets⟩
  | none => exact ⟨rfl, meets⟩

/-- What follows may depend on the states, as long as it does so on both sides alike. -/
theorem mirrored_get {onLeft : σ → Attempt σ α} {onRight : τ → Attempt τ α}
    (rest : ∀ state opposite, meet state opposite →
      Mirrored meet (onLeft state) (onRight opposite) meet) :
    Mirrored meet (get >>= onLeft) (get >>= onRight) meet :=
  fun state opposite meets => rest state opposite meets state opposite meets

end Attempt

namespace Console

variable {H K : Type} [Console H] [Console K]

/-- Consoles that belong together give the same answers, and go on to belong together. -/
structure Kindred (meet : H → K → Prop) : Prop where
  slotCount : ∀ console other, meet console other →
    SlotStore.slotCount other = SlotStore.slotCount console
  read : ∀ slot console other, meet console other →
    (SlotStore.read slot other).1 = (SlotStore.read slot console).1 ∧
      meet (SlotStore.read slot console).2 (SlotStore.read slot other).2
  persist : ∀ slot block console other, meet console other →
    (SlotStore.persist slot block other).1 = (SlotStore.persist slot block console).1 ∧
      meet (SlotStore.persist slot block console).2 (SlotStore.persist slot block other).2
  nextKey : ∀ console other, meet console other →
    (nextKey other).1 = (nextKey console).1 ∧ meet (nextKey console).2 (nextKey other).2
  breakHeld : ∀ console other, meet console other →
    (breakHeld other).1 = (breakHeld console).1 ∧ meet (breakHeld console).2 (breakHeld other).2
  random : ∀ largest console other, meet console other →
    (random largest other).1 = (random largest console).1 ∧
      meet (random largest console).2 (random largest other).2
  column : ∀ console other, meet console other → column other = column console
  clock : ∀ console other, meet console other → clock other = clock console
  print? : ∀ code console other, meet console other →
    Option.Rel meet (print? code console) (print? code other)
  newline? : ∀ console other, meet console other →
    Option.Rel meet (newline? console) (newline? other)
  moveTo? : ∀ row column console other, meet console other →
    Option.Rel meet (moveTo? row column console) (moveTo? row column other)
  clear : ∀ console other, meet console other → meet (clear console) (clear other)
  showEditLine : ∀ codes console other, meet console other →
    meet (showEditLine codes console) (showEditLine codes other)
  notice : ∀ message console other, meet console other →
    meet (notice message console) (notice message other)
  delay : ∀ duration console other, meet console other →
    meet (delay duration console) (delay duration other)
  startTone : ∀ pitch console other, meet console other →
    meet (startTone pitch console) (startTone pitch other)
  stopTone : ∀ console other, meet console other → meet (stopTone console) (stopTone other)

/-- Kindred consoles that belong together more loosely from a report on, until the display is
emptied. -/
structure Reporting (busy idle : H → K → Prop) : Prop extends Kindred busy where
  idle_of_busy : ∀ console other, busy console other → idle console other
  idle_showReport : ∀ report console other, idle console other →
    idle (showReport report console) (showReport report other)
  idle_showEditLine : ∀ codes console other, idle console other →
    idle (Console.showEditLine codes console) (Console.showEditLine codes other)
  busy_clear : ∀ console other, idle console other →
    busy (Console.clear console) (Console.clear other)

end Console

variable {H K : Type} [Console H] [Console K] {meet : H → K → Prop}
  (kindred : Console.Kindred meet)
include kindred

/-! ## Printing -/

namespace Printing

theorem mirrored_codes (codes : List Code) :
    Mirrored meet (Printing.codes codes) (Printing.codes codes) meet := by
  induction codes with
  | nil => exact mirrored_pure ()
  | cons code rest inductionHypothesis =>
      exact (Attempt.mirrored_orFault (kindred.print? code)).bind fun _ => inductionHypothesis

theorem mirrored_newline : Mirrored meet Printing.newline Printing.newline meet :=
  Attempt.mirrored_orFault kindred.newline?

theorem mirrored_padTo (goal : Nat) : Mirrored meet (padTo goal) (padTo goal) meet := by
  refine Attempt.mirrored_get fun console other meets => ?_
  rw [kindred.column console other meets]
  exact mirrored_codes kindred _

theorem mirrored_comma (width : Nat) : Mirrored meet (comma width) (comma width) meet := by
  refine Attempt.mirrored_get fun console other meets => ?_
  rw [kindred.column console other meets]
  split
  · exact mirrored_padTo kindred _
  · exact mirrored_newline kindred

theorem mirrored_tab (width : Nat) (column : Int) :
    Mirrored meet (tab width column) (tab width column) meet := by
  refine Attempt.mirrored_get fun console other meets => ?_
  rw [kindred.column console other meets]
  dsimp only
  split
  · exact (mirrored_newline kindred).bind fun _ => mirrored_padTo kindred _
  · exact mirrored_padTo kindred _

theorem mirrored_moveTo (row column : Int) :
    Mirrored meet (moveTo row column) (moveTo row column) meet := by
  unfold moveTo
  split
  · exact Attempt.mirrored_orFault (kindred.moveTo? _ _)
  · exact mirrored_throw _

theorem mirrored_print (width : Nat) (printed : Statement.Printed) :
    Mirrored meet (printed.print width) (printed.print width) meet := by
  cases printed with
  | value shown => exact mirrored_codes kindred shown.printed
  | newline => exact mirrored_newline kindred
  | comma => exact mirrored_comma kindred width
  | tab column => exact mirrored_tab kindred width column
  | place row column => exact mirrored_moveTo kindred row column

theorem mirrored_listings (listings : List (List Code)) :
    Mirrored meet (Printing.listings listings) (Printing.listings listings) meet := by
  induction listings with
  | nil => exact mirrored_pure ()
  | cons listing rest inductionHypothesis =>
      exact (mirrored_codes kindred listing).bind fun _ =>
        (mirrored_newline kindred).bind fun _ => inductionHypothesis

end Printing

/-! ## Lines -/

theorem Function.mirrored_call (environment : Environment) (function : Function)
    (argument : Value) :
    Mirrored meet (function.call environment argument) (function.call environment argument)
      meet := by
  unfold call
  dsimp only
  split
  · exact mirrored_pure _
  · exact mirrored_pure _
  · split
    · exact mirrored_throw _
    · exact (Attempt.mirrored_ofUpdate (kindred.random _)).bind fun _ => mirrored_pure _
  · exact (mirrored_ofExcept _).bind fun _ => mirrored_pure _
  · exact (mirrored_ofExcept _).bind fun _ => mirrored_pure _
  · exact mirrored_pure _
  · split
    · exact mirrored_pure _
    · exact mirrored_throw _
  · split
    · exact mirrored_throw _
    · exact mirrored_pure _
  · exact mirrored_pure _
  · refine Attempt.mirrored_get fun console other meets => ?_
    rw [kindred.clock console other meets]
    exact mirrored_pure _
  · exact mirrored_throw _

/-- At kindred consoles a line is carried out alike. -/
theorem Statement.alike_execute (environment : Environment) :
    Statement.Alike meet environment environment .execute where
  config := rfl
  fetched _ _ _ := rfl
  reply := Function.mirrored_call kindred environment
  fold _ _ := rfl
  prints := Printing.mirrored_print kindred environment.config.width

end HomeBasic
