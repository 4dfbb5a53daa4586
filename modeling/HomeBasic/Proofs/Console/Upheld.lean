import HomeBasic.Printing
import HomeBasic.Proofs.Attempt.Rules
import HomeBasic.Recorder
import HomeBasic.Teletype

/-!
# What a console keeps to

A console may do as it likes, but for what a predicate on its state says of it:
whatever it is asked for, the predicate goes on to hold (`Upheld`). Its keys type
display codes, and a random number is a word. Which slots it may be asked to save to
is left open.

Main statements: printing keeps to what is upheld (`sustains_codes`, …), and so do the
consoles that there are, where the keys still to come type display codes
(`Recorder.upheld`, `Teletype.upheld`).
-/

namespace HomeBasic

open Attempt (Sustains)

/-- A key that types a display code, or no code at all. -/
def Key.Displayed (key : Key) : Prop :=
  ∀ code, key = .code code → code < 0x40

namespace Console

variable {H : Type} [Console H]

/--
Whatever a console is asked for, a predicate goes on to hold of it. It need not be
asked to save to any but some of the slots.
-/
structure Upheld (size : WordSize) (savable : Nat → Prop) (holds : H → Prop) : Prop where
  nextKey : ∀ console, holds console → holds (nextKey console).2
  displayed : ∀ console key, holds console → (Console.nextKey console).1 = some key → key.Displayed
  breakHeld : ∀ console, holds console → holds (breakHeld console).2
  print? : ∀ code console changed, holds console → print? code console = some changed →
    holds changed
  newline? : ∀ console changed, holds console → newline? console = some changed → holds changed
  moveTo? : ∀ row column console changed, holds console →
    moveTo? row column console = some changed → holds changed
  clear : ∀ console, holds console → holds (clear console)
  showEditLine : ∀ codes console, holds console → holds (showEditLine codes console)
  showReport : ∀ report console, holds console → holds (showReport report console)
  notice : ∀ message console, holds console → holds (notice message console)
  delay : ∀ duration console, holds console → holds (delay duration console)
  random : ∀ largest console, holds console → 1 ≤ largest → size.Fits largest →
    size.Fits (random largest console).1 ∧ holds (Console.random largest console).2
  startTone : ∀ pitch console, holds console → holds (startTone pitch console)
  stopTone : ∀ console, holds console → holds (stopTone console)
  read : ∀ slot console, holds console → holds (SlotStore.read slot console).2
  persist : ∀ slot block console, holds console → savable slot →
    holds (SlotStore.persist slot block console).2

end Console

/-! ## The consoles that there are -/

/-- A number made of any other by a remainder lies between one and the largest. -/
theorem WordSize.fits_remainder {size : WordSize} {largest : Int} (number : Int)
    (positive : 1 ≤ largest) (fits : size.Fits largest) : size.Fits (1 + number % largest) := by
  have lower := Int.emod_nonneg number (show largest ≠ 0 by omega)
  have upper := Int.emod_lt_of_pos number (show 0 < largest by omega)
  have bottom : size.minimum ≤ 0 := by
    cases size <;> decide
  have top := fits.2
  exact ⟨by omega, by omega⟩

theorem Code.lt_of_ofChar? {character : Char} {code : Code}
    (typed : Code.ofChar? character = some code) : code < 0x40 := by
  unfold ofChar? at typed
  dsimp only at typed
  split at typed
  next shown =>
    cases typed
    have upper : character.toUpper.toNat ≤ 95 := shown.2
    rw [UInt8.lt_iff_toNat_lt, UInt8.toNat_ofNat']
    have small : (0x40 : UInt8).toNat = 64 := rfl
    omega
  next => cases typed

/-- A text is typed with display codes only. -/
theorem Code.shown_encode (text : String) : ∀ code ∈ Code.encode text, code < 0x40 := by
  intro code member
  obtain ⟨character, -, typed⟩ := List.mem_filterMap.mp member
  exact Code.lt_of_ofChar? typed

section
variable {S : Type} [SlotStore S] {size : WordSize} {savable : Nat → Prop} {kept : S → Prop}
  (reads : ∀ slot slots, kept slots → kept (SlotStore.read slot slots).2)
  (persists : ∀ slot block slots, kept slots → savable slot →
    kept (SlotStore.persist slot block slots).2)

/-- The keys still to come type display codes, and the slots keep what they should. -/
structure Recorder.Ready (kept : S → Prop) (recorder : Recorder S) : Prop where
  displayed : ∀ key ∈ recorder.keys, key.Displayed
  slots : kept recorder.slots

omit [SlotStore S] in
theorem Recorder.Ready.stopTone {recorder : Recorder S} (ready : recorder.Ready kept) :
    recorder.stopTone.Ready kept := by
  unfold Recorder.stopTone
  split
  · exact ready
  · exact ⟨ready.displayed, ready.slots⟩

include reads persists in
/-- A recorder keeps to what its slots keep to. -/
theorem Recorder.upheld : Console.Upheld size savable (Recorder.Ready kept) where
  nextKey recorder ready := by
    refine ⟨fun key member => ready.displayed key ?_, ?_⟩
    · cases keys : recorder.keys with
      | nil => simp [Console.nextKey, keys] at member
      | cons first rest =>
          exact List.mem_cons_of_mem _ (by simpa [Console.nextKey, keys] using member)
    · cases keys : recorder.keys <;> simpa [Console.nextKey, keys] using ready.slots
  displayed recorder key ready taken := by
    apply ready.displayed key
    cases keys : recorder.keys with
    | nil => simp [Console.nextKey, keys] at taken
    | cons first rest =>
        obtain rfl : first = key := by simpa [Console.nextKey, keys] using taken
        exact List.mem_cons_self
  breakHeld _ ready := ⟨ready.displayed, ready.slots⟩
  print? code recorder changed ready printed := by
    obtain ⟨screen, _, rfl⟩ := Option.map_eq_some_iff.mp printed
    exact ⟨ready.displayed, ready.slots⟩
  newline? recorder changed ready printed := by
    obtain ⟨screen, _, rfl⟩ := Option.map_eq_some_iff.mp printed
    exact ⟨ready.displayed, ready.slots⟩
  moveTo? row column recorder changed ready moved := by
    obtain ⟨screen, _, rfl⟩ := Option.map_eq_some_iff.mp moved
    exact ⟨ready.displayed, ready.slots⟩
  clear _ ready := ⟨ready.displayed, ready.slots⟩
  showEditLine _ _ ready := ⟨ready.displayed, ready.slots⟩
  showReport _ _ ready := ⟨ready.displayed, ready.slots⟩
  notice _ _ ready := ⟨ready.displayed, ready.slots⟩
  delay _ _ ready := ⟨ready.displayed, ready.slots⟩
  random _ _ ready positive fits :=
    ⟨WordSize.fits_remainder _ positive fits, ready.displayed, ready.slots⟩
  startTone _ _ ready := ⟨ready.stopTone.displayed, ready.stopTone.slots⟩
  stopTone _ ready := ready.stopTone
  read slot _ ready := ⟨ready.displayed, reads slot _ ready.slots⟩
  persist slot block _ ready allowed := ⟨ready.displayed, persists slot block _ ready.slots allowed⟩

/-- The keys still to come type display codes, and the slots keep what they should. -/
structure Teletype.Ready (kept : S → Prop) (teletype : Teletype S) : Prop where
  displayed : ∀ key ∈ teletype.keys, key.Displayed
  slots : kept teletype.slots

/-- The keys of a line type display codes, whatever the line. -/
theorem Teletype.displayed_keysOf {line : List Char} {key : Key} (member : key ∈ keysOf line) :
    key.Displayed := by
  intro code same
  subst same
  rcases List.mem_append.mp member with typed | entered
  · obtain ⟨other, typed, same⟩ := List.mem_map.mp typed
    cases same
    obtain ⟨character, _, typed⟩ := List.mem_filterMap.mp typed
    exact Code.lt_of_ofChar? typed
  · cases List.mem_singleton.mp entered

omit [SlotStore S] in
theorem Teletype.Ready.nextKey {teletype : Teletype S} (ready : teletype.Ready kept) :
    (∀ key, teletype.nextKey.1 = some key → key.Displayed) ∧ teletype.nextKey.2.Ready kept := by
  have displayed := ready.displayed
  unfold Teletype.nextKey
  split
  next key keys _ held =>
    rw [held] at displayed
    obtain ⟨first, rest⟩ := List.forall_mem_cons.mp displayed
    refine ⟨fun other same => ?_, rest, ready.slots⟩
    cases same
    exact first
  next => exact ⟨nofun, ready⟩
  next held line input =>
    split
    next => exact ⟨nofun, ready.displayed, ready.slots⟩
    next key keys read =>
      have displayed : ∀ other ∈ key :: keys, other.Displayed := fun other member =>
        displayed_keysOf (read ▸ member)
      obtain ⟨first, rest⟩ := List.forall_mem_cons.mp displayed
      refine ⟨fun other same => ?_, rest, ready.slots⟩
      cases same
      exact first

omit [SlotStore S] in
theorem Teletype.Ready.random {teletype : Teletype S} (ready : teletype.Ready kept)
    {largest : Int} (positive : 1 ≤ largest) (fits : size.Fits largest) :
    size.Fits (teletype.random largest).1 ∧ (teletype.random largest).2.Ready kept := by
  obtain ⟨number, seed, run⟩ : ∃ (number : Int) (seed : Nat),
      teletype.random largest = (1 + number % largest, { teletype with seed }) := ⟨_, _, rfl⟩
  rw [run]
  exact ⟨WordSize.fits_remainder number positive fits, ready.displayed, ready.slots⟩

include reads persists in
/-- A teletype keeps to what its slots keep to, whatever lines it reads. -/
theorem Teletype.upheld : Console.Upheld size savable (Teletype.Ready kept) where
  nextKey _ ready := ready.nextKey.2
  displayed _ key ready taken := ready.nextKey.1 key taken
  breakHeld _ ready := ready
  print? code teletype changed ready printed := by
    cases printed
    exact ⟨ready.displayed, ready.slots⟩
  newline? teletype changed ready printed := by
    cases printed
    exact ⟨ready.displayed, ready.slots⟩
  moveTo? row column teletype changed ready moved := by
    obtain ⟨screen, _, rfl⟩ := Option.map_eq_some_iff.mp moved
    exact ⟨ready.displayed, ready.slots⟩
  clear _ ready := ⟨ready.displayed, ready.slots⟩
  showEditLine _ _ ready := ready
  showReport _ _ ready := ⟨ready.displayed, ready.slots⟩
  notice _ _ ready := ⟨ready.displayed, ready.slots⟩
  delay _ _ ready := ⟨ready.displayed, ready.slots⟩
  random _ _ ready positive fits := ready.random positive fits
  startTone _ _ ready := ready
  stopTone _ ready := ready
  read slot _ ready := ⟨ready.displayed, reads slot _ ready.slots⟩
  persist slot block _ ready allowed := ⟨ready.displayed, persists slot block _ ready.slots allowed⟩

end

/-! ## Printing -/

namespace Printing

variable {H : Type} [Console H] {size : WordSize} {savable : Nat → Prop} {holds : H → Prop}
  (upheld : Console.Upheld size savable holds)
include upheld

theorem sustains_code (code : Code) : Sustains holds (Printing.code code) fun _ => True :=
  Attempt.sustains_orFault fun console changed => upheld.print? code console changed

theorem sustains_codes (codes : List Code) :
    Sustains holds (Printing.codes codes) fun _ => True := by
  induction codes with
  | nil => exact Attempt.sustains_pure trivial
  | cons code rest inductionHypothesis =>
      exact (sustains_code upheld code).bind fun _ _ => inductionHypothesis

theorem sustains_newline : Sustains holds Printing.newline fun _ => True :=
  Attempt.sustains_orFault fun console changed => upheld.newline? console changed

theorem sustains_padTo (column : Nat) : Sustains holds (padTo column) fun _ => True :=
  Attempt.sustains_get.bind fun _ _ => sustains_codes upheld _

theorem sustains_comma (width : Nat) : Sustains holds (comma width) fun _ => True := by
  apply Attempt.sustains_get.bind
  intro console _
  split
  · exact sustains_padTo upheld _
  · exact sustains_newline upheld

theorem sustains_tab (width : Nat) (column : Int) :
    Sustains holds (tab width column) fun _ => True := by
  apply Attempt.sustains_get.bind
  intro console _
  dsimp only
  split
  · exact (sustains_newline upheld).bind fun _ _ => sustains_padTo upheld _
  · exact sustains_padTo upheld _

theorem sustains_moveTo (row column : Int) : Sustains holds (moveTo row column) fun _ => True := by
  unfold moveTo
  split
  · exact Attempt.sustains_orFault fun console changed => upheld.moveTo? _ _ console changed
  · exact Attempt.sustains_throw _

theorem sustains_listings (listings : List (List Code)) :
    Sustains holds (Printing.listings listings) fun _ => True := by
  induction listings with
  | nil => exact Attempt.sustains_pure trivial
  | cons listing rest inductionHypothesis =>
      exact (sustains_codes upheld listing).bind fun _ _ =>
        (sustains_newline upheld).bind fun _ _ => inductionHypothesis

end Printing
end HomeBasic
