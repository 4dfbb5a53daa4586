import HomeBasic.Proofs.Console.Kindred

/-!
# Consoles that oversee evaluations

A console may be joined by a register of how many evaluations are under way, and by a record of
the entries of their stack that each of them looked at or took off. Its answers stay the same.

Main statement: a console and an overseen one are kindred, and the register and the record are
left alone (`Overseen.kindred`).
-/

namespace HomeBasic

/-- An entry of the stack that an evaluation looked at or took off: as many entries as the
evaluation had found, which are those below its sentinel, and as many as are below the entry. -/
structure Touch where
  base : Nat
  height : Nat
  deriving DecidableEq, Repr, Inhabited

/-- A console, how many evaluations are under way, and what they touched, the last touch first. -/
structure Overseen (H : Type) where
  console : H
  depth : Nat
  touched : List Touch
  deriving DecidableEq, Repr, Inhabited

namespace Overseen

variable {H : Type}

/-- An evaluation opens. -/
def enter (overseen : Overseen H) : Overseen H :=
  { overseen with depth := overseen.depth + 1 }

/-- An evaluation ends. -/
def leave (overseen : Overseen H) : Overseen H :=
  { overseen with depth := overseen.depth - 1 }

/-- Entries of the stack are touched. -/
def note (overseen : Overseen H) (touches : List Touch) : Overseen H :=
  { overseen with touched := touches ++ overseen.touched }

/-- Whatever an overseen console is asked for is asked of the console. -/
instance [Console H] : Console (Overseen H) where
  slotCount overseen := SlotStore.slotCount overseen.console
  read slot overseen :=
    let (result, console) := SlotStore.read slot overseen.console
    (result, { overseen with console })
  persist slot block overseen :=
    let (result, console) := SlotStore.persist slot block overseen.console
    (result, { overseen with console })
  nextKey overseen :=
    let (key, console) := Console.nextKey overseen.console
    (key, { overseen with console })
  breakHeld overseen :=
    let (held, console) := Console.breakHeld overseen.console
    (held, { overseen with console })
  print? code overseen :=
    (Console.print? code overseen.console).map fun console => { overseen with console }
  newline? overseen :=
    (Console.newline? overseen.console).map fun console => { overseen with console }
  moveTo? row column overseen :=
    (Console.moveTo? row column overseen.console).map fun console => { overseen with console }
  column overseen := Console.column overseen.console
  clear overseen := { overseen with console := Console.clear overseen.console }
  showEditLine codes overseen :=
    { overseen with console := Console.showEditLine codes overseen.console }
  showReport report overseen :=
    { overseen with console := Console.showReport report overseen.console }
  notice message overseen := { overseen with console := Console.notice message overseen.console }
  clock overseen := Console.clock overseen.console
  delay duration overseen := { overseen with console := Console.delay duration overseen.console }
  random largest overseen :=
    let (number, console) := Console.random largest overseen.console
    (number, { overseen with console })
  startTone pitch overseen :=
    { overseen with console := Console.startTone pitch overseen.console }
  stopTone overseen := { overseen with console := Console.stopTone overseen.console }

/-- A console is overseen, with a register and a record that are given. -/
def Sees (depth : Nat) (touched : List Touch) (overseen : Overseen H) (console : H) : Prop :=
  overseen = ⟨console, depth, touched⟩

theorem sees_map {depth : Nat} {touched : List Touch} (result : Option H) :
    Option.Rel (Sees depth touched)
      (result.map fun console => ⟨console, depth, touched⟩) result := by
  cases result with
  | none => exact .none
  | some console => exact .some rfl

/-- That a console is overseen makes no difference to what it does. -/
theorem kindred [Console H] (depth : Nat) (touched : List Touch) :
    Console.Kindred (Sees (H := H) depth touched) where
  slotCount := by
    rintro _ console rfl
    rfl
  read := by
    rintro slot _ console rfl
    exact ⟨rfl, rfl⟩
  persist := by
    rintro slot block _ console rfl
    exact ⟨rfl, rfl⟩
  nextKey := by
    rintro _ console rfl
    exact ⟨rfl, rfl⟩
  breakHeld := by
    rintro _ console rfl
    exact ⟨rfl, rfl⟩
  random := by
    rintro largest _ console rfl
    exact ⟨rfl, rfl⟩
  column := by
    rintro _ console rfl
    rfl
  clock := by
    rintro _ console rfl
    rfl
  print? := by
    rintro code _ console rfl
    exact sees_map (Console.print? code console)
  newline? := by
    rintro _ console rfl
    exact sees_map (Console.newline? console)
  moveTo? := by
    rintro row column _ console rfl
    exact sees_map (Console.moveTo? row column console)
  clear := by
    rintro _ console rfl
    rfl
  showEditLine := by
    rintro codes _ console rfl
    rfl
  notice := by
    rintro message _ console rfl
    rfl
  delay := by
    rintro duration _ console rfl
    rfl
  startTone := by
    rintro pitch _ console rfl
    rfl
  stopTone := by
    rintro _ console rfl
    rfl

/-! ## What evaluations may touch -/

/-- Since a start evaluations were entered and left, each of which found at least so many entries
and touched none below its sentinel. -/
structure Heeds (base : Nat) (start overseen : Overseen H) : Prop where
  depth : overseen.depth = start.depth
  touched : ∃ touches, overseen.touched = touches ++ start.touched ∧
    ∀ touch ∈ touches, base ≤ touch.base ∧ touch.base ≤ touch.height

namespace Heeds

variable {base lower : Nat} {start reached later : Overseen H}

theorem refl (base : Nat) (start : Overseen H) : Heeds base start start :=
  ⟨rfl, [], rfl, nofun⟩

theorem trans (first : Heeds base start reached) (second : Heeds base reached later) :
    Heeds base start later := by
  obtain ⟨touches, before, above⟩ := first.touched
  obtain ⟨others, after, beyond⟩ := second.touched
  refine ⟨second.depth.trans first.depth, others ++ touches, ?_, ?_⟩
  · rw [after, before, List.append_assoc]
  · exact List.forall_mem_append.mpr ⟨beyond, above⟩

theorem mono (heeds : Heeds base start reached) (less : lower ≤ base) :
    Heeds lower start reached := by
  obtain ⟨touches, before, above⟩ := heeds.touched
  exact ⟨heeds.depth, touches, before,
    fun touch member => ⟨Nat.le_trans less (above touch member).1, (above touch member).2⟩⟩

theorem note (heeds : Heeds base start reached) {touches : List Touch}
    (above : ∀ touch ∈ touches, base ≤ touch.base ∧ touch.base ≤ touch.height) :
    Heeds base start (reached.note touches) :=
  heeds.trans ⟨rfl, touches, rfl, above⟩

/-- What happened since an evaluation was opened that ends now. -/
theorem leave (heeds : Heeds base start.enter reached) : Heeds base start reached.leave := by
  have depth : reached.depth = start.depth + 1 := heeds.depth
  exact ⟨by rw [Overseen.leave, depth, Nat.add_sub_cancel], heeds.touched⟩

end Heeds

end Overseen
end HomeBasic
