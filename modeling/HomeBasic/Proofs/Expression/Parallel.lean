import HomeBasic.Expression
import HomeBasic.Proofs.Desk.Movement
import HomeBasic.Proofs.Scanner.Line
import Mathlib.Data.List.Forall2

/-!
# Two evaluations of one expression

One expression is evaluated twice, from the same place but in different modes or with
different environments and consoles. If what the two make of values is alike
(`Parallel`), the evaluations keep together: they read the same codes, pend the same
operations on values that are alike, and come to values that are alike, or they stop
in one of the ways that are allowed. The place itself plays no part: it is enough that
the same codes are left of the line (`Tracks`).

Main statement: this is so for whole evaluations (`tracks_evaluateWithin`,
`keeps_evaluateWithin`).
-/

namespace HomeBasic
namespace Expression

open Attempt (Related Exits Together)

/-! ## What the modes differ in -/

/-- What a variable is fetched as. -/
def fetched (environment : Environment) (name : Name) (index : Int) :
    Mode → NameUse → Except Fault Value
  | _, .textFunction => .error .syntaxError
  | .check, .text => .ok (.text [])
  | .check, _ => .ok (.number 0)
  | .execute, .number => (environment.variableStore.number name).map .number
  | .execute, .text => (environment.variableStore.text name).map .text
  | .execute, .array => (environment.variableStore.element name index).map .number

section
variable {H : Type} [Console H] (environment : Environment) (mode : Mode)

/-- What a function replies to its argument. -/
def reply (function : Function) (argument : Value) : Attempt H Value :=
  match mode with
  | .check => pure function.placeholder
  | .execute => function.call environment argument

variable (nested : Attempt (Desk H) Value)

/-- Reads the argument of a function, if it takes one. -/
def argument (function : Function) : Attempt (Desk H) Value :=
  if function.takesArgument then do
    Desk.expect Code.leftParen
    let argument ← nested
    Desk.expect Code.rightParen
    if argument.isText = function.takesText then
      return argument
    else
      throw .syntaxError
  else
    return .number 0

theorem callFunction_eq (function : Function) :
    callFunction environment mode nested function = (do
      let value ← argument nested function
      Desk.consulting (reply environment mode function value)) := by
  unfold callFunction argument
  cases function.takesArgument with
  | false => cases mode <;> rfl
  | true =>
      simp only [if_true, bind_assoc]
      congr
      funext _
      congr
      funext value
      congr
      funext _
      by_cases same : value.isText = function.takesText
      · cases mode <;> simp [same] <;> rfl
      · simp [same]

/-- Reads what follows a name that belongs to it. -/
def subscriptOf : NameUse → Attempt (Desk H) Int
  | .array => subscript nested
  | .text => do
      Desk.skip 1
      return 0
  | _ => return 0

theorem reference_eq :
    reference environment mode nested = (do
      let (name, use) ← Desk.readName
      match Function.ofName? name use with
      | some function => do
          Desk.skip name.length
          if use = .textFunction then
            Desk.skip 1
          callFunction environment mode nested function
      | none =>
          if Function.isReserved name then
            throw .syntaxError
          else do
            Desk.skip name.length
            let index ← subscriptOf nested use
            let value ← Attempt.ofExcept (fetched environment name index mode use)
            let _ ← Desk.look
            return value) := by
  unfold reference
  congr
  funext (name, use)
  dsimp only
  cases Function.ofName? name use with
  | some function => rfl
  | none =>
      cases Function.isReserved name with
      | true => rfl
      | false => cases use <;> cases mode <;> simp [subscriptOf, fetched, Attempt.ofExcept_map]

end

/-! ## Two sides -/

/-- What counts as alike on two sides, and the ways in which the sides may stop. -/
structure Pairing (H K : Type) extends Exits where
  Alike : Value → Value → Prop
  Meet : H → K → Prop

namespace Pairing

variable {H K : Type} {α β γ δ : Type} (pairing : Pairing H K)

/-- Operations that wait alike, on values that are alike. -/
structure PendAlike (left right : Pending) : Prop where
  value : pairing.Alike left.value right.value
  operator : right.operator = left.operator
  priority : right.priority = left.priority

/-- Two desks at the same place of a line, with operations pending that are alike. -/
structure Beside (left : Desk H) (right : Desk K) : Prop where
  scanner : right.scanner = left.scanner
  capacity : right.calculator.capacity = left.calculator.capacity
  pending : List.Forall₂ pairing.PendAlike left.calculator.items right.calculator.items
  console : pairing.Meet left.console right.console

/--
Two desks with the same line left, of no more than so many codes, and with operations
pending that are alike. Where it has to be exact, they are at the same place of the line.
-/
structure Along (exact : Prop) (bound : Nat) (left : Desk H) (right : Desk K) : Prop where
  scanner : Scanner.Abreast bound left.scanner right.scanner
  same : exact → right.scanner = left.scanner
  capacity : right.calculator.capacity = left.calculator.capacity
  pending : List.Forall₂ pairing.PendAlike left.calculator.items right.calculator.items
  console : pairing.Meet left.console right.console

/-- Two steps keep side by side, and what they come to is related. -/
def Keeps (same : α → β → Prop) (left : Attempt (Desk H) α) (right : Attempt (Desk K) β) :
    Prop :=
  Related pairing.toExits pairing.Beside left right
    fun value desk other opposite => same value other ∧ pairing.Beside desk opposite

/-- Two steps keep to the same line up to a further bound, and come to what is related. -/
def Tracks (exact : Prop) (bound reached : Nat) (same : α → β → Prop)
    (left : Attempt (Desk H) α) (right : Attempt (Desk K) β) : Prop :=
  Related pairing.toExits (pairing.Along exact bound) left right
    fun value desk other opposite => same value other ∧ pairing.Along exact reached desk opposite

/-- Two steps keep to the same line from where it opens with a code. -/
def TracksAt (exact : Prop) (bound reached : Nat) (code : Code) (same : α → β → Prop)
    (left : Attempt (Desk H) α) (right : Attempt (Desk K) β) : Prop :=
  Related pairing.toExits
    (fun desk opposite => pairing.Along exact bound desk opposite ∧ desk.scanner.current = code)
    left right
    fun value desk other opposite => same value other ∧ pairing.Along exact reached desk opposite

variable {pairing} {exact : Prop} {bound middle reached : Nat} {code : Code}

theorem PendAlike.eq {pending waiting : Pending} (alike : pairing.PendAlike pending waiting)
    (exactly : ∀ left right, pairing.Alike left right → left = right) : waiting = pending := by
  obtain ⟨values, operators, priorities⟩ := alike
  obtain ⟨value, operator, priority⟩ := pending
  obtain ⟨other, operator', priority'⟩ := waiting
  cases exactly _ _ values
  cases operators
  cases priorities
  rfl

theorem Along.mono {desk : Desk H} {opposite : Desk K}
    (along : pairing.Along exact bound desk opposite) (less : bound ≤ reached) :
    pairing.Along exact reached desk opposite :=
  { along with scanner := ⟨along.scanner.line, Nat.le_trans along.scanner.within less⟩ }

theorem Tracks.mono {same : α → β → Prop} {left : Attempt (Desk H) α}
    {right : Attempt (Desk K) β} (tracks : pairing.Tracks exact bound middle same left right)
    (less : middle ≤ reached) : pairing.Tracks exact bound reached same left right :=
  tracks.weaken (.refl _) (fun _ _ => id) fun _ _ _ _ both => ⟨both.1, both.2.mono less⟩

theorem Tracks.at {same : α → β → Prop} {left : Attempt (Desk H) α}
    {right : Attempt (Desk K) β} (tracks : pairing.Tracks exact bound reached same left right)
    (code : Code) : pairing.TracksAt exact bound reached code same left right :=
  tracks.weaken (.refl _) (fun _ _ => And.left) fun _ _ _ _ => id

/-- After steps that keep to the line, others go on from there. -/
theorem Tracks.andThen {same : α → β → Prop} {after : γ → Desk H → δ → Desk K → Prop}
    {left : Attempt (Desk H) α} {right : Attempt (Desk K) β}
    {onLeft : α → Attempt (Desk H) γ} {onRight : β → Attempt (Desk K) δ}
    (first : pairing.Tracks exact bound middle same left right)
    (rest : ∀ value other, same value other →
      Related pairing.toExits (pairing.Along exact middle) (onLeft value) (onRight other) after) :
    Related pairing.toExits (pairing.Along exact bound) (left >>= onLeft) (right >>= onRight)
      after := by
  refine Related.bind first fun value other desk opposite both => ?_
  exact rest value other both.1 desk opposite both.2

theorem Tracks.bind {same : α → β → Prop} {after : γ → δ → Prop}
    {left : Attempt (Desk H) α} {right : Attempt (Desk K) β}
    {onLeft : α → Attempt (Desk H) γ} {onRight : β → Attempt (Desk K) δ}
    (first : pairing.Tracks exact bound middle same left right)
    (rest : ∀ value other, same value other →
      pairing.Tracks exact middle reached after (onLeft value) (onRight other)) :
    pairing.Tracks exact bound reached after (left >>= onLeft) (right >>= onRight) :=
  first.andThen rest

theorem TracksAt.bind {same : α → β → Prop} {after : γ → δ → Prop}
    {left : Attempt (Desk H) α} {right : Attempt (Desk K) β}
    {onLeft : α → Attempt (Desk H) γ} {onRight : β → Attempt (Desk K) δ}
    (first : pairing.TracksAt exact bound middle code same left right)
    (rest : ∀ value other, same value other →
      pairing.Tracks exact middle reached after (onLeft value) (onRight other)) :
    pairing.TracksAt exact bound reached code after (left >>= onLeft) (right >>= onRight) := by
  refine Related.bind first fun value other desk opposite both => ?_
  exact rest value other both.1 desk opposite both.2

/-- Where a line opens with a code that does not end it, there is something left. -/
theorem related_of_pos {after : α → Desk H → β → Desk K → Prop} {left : Attempt (Desk H) α}
    {right : Attempt (Desk K) β} (more : code ≠ Code.newline)
    (related : 0 < bound → Related pairing.toExits
      (fun desk opposite =>
        pairing.Along exact bound desk opposite ∧ desk.scanner.current = code)
      left right after) :
    Related pairing.toExits
      (fun desk opposite =>
        pairing.Along exact bound desk opposite ∧ desk.scanner.current = code)
      left right after := by
  rintro desk opposite ⟨along, looked⟩
  refine related ?_ desk opposite ⟨along, looked⟩
  obtain ⟨rest, opens⟩ := Scanner.line_eq_cons looked more
  have within := along.scanner.within
  rw [opens, List.length_cons] at within
  omega

theorem tracks_pure {same : α → β → Prop} {value : α} {other : β} (holds : same value other) :
    pairing.Tracks exact bound bound same (pure value) (pure other) :=
  fun _ _ along => ⟨holds, along⟩

theorem tracks_ofExcept {same : α → β → Prop} {left : Except Fault α} {right : Except Fault β}
    (holds : pairing.toExits.Results same left right) :
    pairing.Tracks exact bound bound same (Attempt.ofExcept left) (Attempt.ofExcept right) := by
  intro desk opposite along
  cases left <;> cases right
  case ok.ok => exact ⟨holds, along⟩
  all_goals exact holds

section
variable (both : ∀ fault, pairing.both fault fault)
include both

theorem tracks_throw {same : α → β → Prop} (fault : Fault) :
    pairing.Tracks exact bound reached same (throw fault) (throw fault) :=
  fun _ _ _ => .inl (both fault)

/-- A step of the scanner that is the same on the same line keeps to the line. -/
theorem related_scanning {step : Attempt Scanner α} {start : Scanner → Scanner → Prop}
    (related : Related .same start step step
      fun value first other second => value = other ∧ Scanner.Abreast reached first second) :
    Related pairing.toExits
      (fun desk opposite => pairing.Along exact bound desk opposite ∧
        start desk.scanner opposite.scanner)
      (Desk.scanning step) (Desk.scanning step)
      fun value desk other opposite =>
        value = other ∧ pairing.Along exact reached desk opposite := by
  rintro desk opposite ⟨along, starts⟩
  have read := related desk.scanner opposite.scanner starts
  have same : exact → step opposite.scanner = step desk.scanner :=
    fun exactly => by rw [along.same exactly]
  simp only [Desk.scanning, Attempt.within_apply]
  generalize step desk.scanner = outcome at read same ⊢
  generalize step opposite.scanner = arrival at read same ⊢
  rcases outcome with ⟨fault | value, later⟩ <;> rcases arrival with ⟨fault' | value', later'⟩
  · obtain rfl : fault = fault' := read.resolve_right fun never => never.elim id id
    exact .inl (both fault)
  · exact read.elim
  · exact read.elim
  · exact ⟨read.1, read.2, fun exactly => congrArg Prod.snd (same exactly), along.capacity,
      along.pending, along.console⟩

theorem tracks_scanning {step : Attempt Scanner α}
    (related : Related .same (Scanner.Abreast bound) step step
      fun value first other second => value = other ∧ Scanner.Abreast reached first second) :
    pairing.Tracks exact bound reached Eq (Desk.scanning step) (Desk.scanning step) :=
  (related_scanning both related).weaken (.refl _) (fun _ _ along => ⟨along, along.scanner⟩)
    fun _ _ _ _ => id

theorem tracksAt_scanning {step : Attempt Scanner α}
    (related : Related .same (Scanner.Facing bound code) step step
      fun value first other second => value = other ∧ Scanner.Abreast reached first second) :
    pairing.TracksAt exact bound reached code Eq (Desk.scanning step) (Desk.scanning step) :=
  (related_scanning both related).weaken (.refl _)
    (fun _ _ both => ⟨both.1, both.1.scanner, both.2⟩) fun _ _ _ _ => id

theorem tracks_advance :
    pairing.Tracks exact bound (bound - 1) Eq Desk.advance Desk.advance :=
  tracks_scanning both fun _ _ abreast => ⟨rfl, abreast.advance⟩

theorem tracks_skip (count : Nat) :
    pairing.Tracks exact bound (bound - count) Eq (Desk.skip count) (Desk.skip count) :=
  tracks_scanning both fun _ _ abreast => ⟨rfl, abreast.skip count⟩

theorem tracks_expect (code : Code) :
    pairing.Tracks exact bound (bound - 1) Eq (Desk.expect code) (Desk.expect code) :=
  tracks_scanning both (Scanner.abreast_expect code)

theorem tracks_expectEnd :
    pairing.Tracks exact bound bound Eq Desk.expectEnd Desk.expectEnd :=
  tracks_scanning both Scanner.abreast_expectEnd

omit both in
/-- What is done after a look may depend on the code that the line opens with. -/
theorem related_look_bind {after : α → Desk H → β → Desk K → Prop}
    {onLeft : Code → Attempt (Desk H) α} {onRight : Code → Attempt (Desk K) β}
    (rest : ∀ code, Related pairing.toExits
      (fun desk opposite =>
        pairing.Along exact bound desk opposite ∧ desk.scanner.current = code)
      (onLeft code) (onRight code) after) :
    Related pairing.toExits (pairing.Along exact bound) (Desk.look >>= onLeft)
      (Desk.look >>= onRight) after := by
  intro desk opposite along
  have looked := along.scanner.look
  rw [Attempt.bind_apply, Attempt.bind_apply, Desk.look_apply, Desk.look_apply]
  dsimp only
  rw [looked.toAbreast.current]
  refine rest _ _ _ ⟨⟨looked.toAbreast, fun exactly => ?_, along.capacity, along.pending,
    along.console⟩, rfl⟩
  rw [along.same exactly]

omit both in
theorem tracks_look_bind {same : α → β → Prop} {onLeft : Code → Attempt (Desk H) α}
    {onRight : Code → Attempt (Desk K) β}
    (rest : ∀ code, pairing.TracksAt exact bound reached code same (onLeft code) (onRight code)) :
    pairing.Tracks exact bound reached same (Desk.look >>= onLeft) (Desk.look >>= onRight) :=
  related_look_bind rest

/-- The name that a line opens with, and that there is one. -/
theorem tracksAt_readName (more : code ≠ Code.newline) :
    pairing.TracksAt exact bound bound code
      (fun named other => named = other ∧ 0 < named.1.length) Desk.readName Desk.readName := by
  rintro desk opposite ⟨along, looked⟩
  subst looked
  have name := Scanner.nameAhead_congr along.scanner.line more
  have others : opposite.scanner.current ≠ Code.newline := by
    rw [along.scanner.current]
    exact more
  rw [Desk.readName_apply, Desk.readName_apply, name, Scanner.take_nameAhead more, ← name,
    Scanner.take_nameAhead others, name, along.scanner.line]
  split
  · exact .inl (both _)
  · refine ⟨⟨rfl, ?_⟩, along⟩
    rw [List.length_take, Nat.min_eq_left (Scanner.nameAhead_le more)]
    exact Nat.lt_of_lt_of_le Nat.zero_lt_one (Nat.le_add_right 1 _)

theorem tracks_push {pending waiting : Pending} (alike : pairing.PendAlike pending waiting) :
    pairing.Tracks exact bound bound Eq (Desk.push pending) (Desk.push waiting) := by
  intro desk opposite along
  have height : opposite.calculator.length = desk.calculator.length :=
    along.pending.length_eq.symm
  rw [Desk.push_apply, Desk.push_apply]
  unfold BoundedStack.push BoundedStack.isFull
  rw [height, along.capacity]
  by_cases full : desk.calculator.capacity ≤ desk.calculator.length
  · simp only [decide_eq_true_eq, if_pos full]
    exact .inl (both _)
  · simp only [decide_eq_true_eq, if_neg full]
    exact ⟨trivial, along.scanner, along.same, rfl, .cons alike along.pending, along.console⟩

end

theorem tracks_restoring {same : α → β → Prop} {left : Attempt (Desk H) α}
    {right : Attempt (Desk K) β} (tracks : pairing.Tracks exact bound reached same left right) :
    pairing.Tracks exact bound reached same (Desk.restoring left) (Desk.restoring right) := by
  intro desk opposite along
  have arrived := tracks desk opposite along
  unfold Desk.restoring
  generalize left desk = outcome at arrived ⊢
  generalize right opposite = arrival at arrived ⊢
  rcases outcome with ⟨fault | value, changed⟩ <;> rcases arrival with ⟨other | other, moved⟩
  all_goals exact arrived

end Pairing

/-- What is left to do on two sides after folding. -/
inductive Pairing.FoldAlike {H K : Type} (pairing : Pairing H K) : Folded → Folded → Prop
  | ended {value other : Value} {below beneath : List Pending} :
      pairing.Alike value other → List.Forall₂ pairing.PendAlike below beneath →
      FoldAlike pairing (.ended value below) (.ended other beneath)
  | waiting {value other : Value} {stack opposite : List Pending} :
      pairing.Alike value other → List.Forall₂ pairing.PendAlike stack opposite →
      FoldAlike pairing (.waiting value stack) (.waiting other opposite)

/--
Two ways of evaluating that keep to a pairing in what they fetch, what functions reply
and what they fold. The rest of an evaluation is the same on both sides.
-/
structure Parallel {H K : Type} [Console H] [Console K] (pairing : Pairing H K)
    (first second : Environment) (firstMode secondMode : Mode) : Prop where
  config : second.config = first.config
  both : ∀ fault, pairing.both fault fault
  alike : ∀ value, pairing.Alike value value
  isText : ∀ left right, pairing.Alike left right → right.isText = left.isText
  fetched : ∀ name use left right, pairing.Alike (.number left) (.number right) →
    pairing.toExits.Results pairing.Alike
      (fetched first name left firstMode use) (fetched second name right secondMode use)
  reply : ∀ function left right, pairing.Alike left right →
    left.isText = function.takesText →
      Related pairing.toExits pairing.Meet
        (reply first firstMode function left) (reply second secondMode function right)
        fun value console other terminal =>
          pairing.Alike value other ∧ pairing.Meet console terminal
  fold : ∀ pending waiting left right, pairing.PendAlike pending waiting →
    pairing.Alike left right →
      pairing.toExits.Results pairing.Alike
        (fold first firstMode pending left) (fold second secondMode waiting right)

/-- The same pairing with other ways in which the sides may stop. -/
def Pairing.withExits {H K : Type} (pairing : Pairing H K) (exits : Exits) : Pairing H K :=
  { pairing with toExits := exits }

/-- What keeps to a pairing keeps to it with more ways to stop. -/
theorem Parallel.widen {H K : Type} [Console H] [Console K] {pairing : Pairing H K}
    {first second : Environment} {firstMode secondMode : Mode} {exits : Exits}
    (parallel : Parallel pairing first second firstMode secondMode)
    (within : pairing.toExits.Within exits) :
    Parallel (pairing.withExits exits) first second firstMode secondMode where
  config := parallel.config
  both fault := within.both _ _ (parallel.both fault)
  alike := parallel.alike
  isText := parallel.isText
  fetched name use left right alike :=
    (parallel.fetched name use left right alike).weaken within fun _ _ => id
  reply function left right alike typed :=
    (parallel.reply function left right alike typed).weaken within (fun _ _ => id)
      fun _ _ _ _ => id
  fold pending waiting left right alikePending alike :=
    (parallel.fold pending waiting left right
      ⟨alikePending.value, alikePending.operator, alikePending.priority⟩ alike).weaken within
      fun _ _ => id

/-! ## Evaluation keeps to the line -/

section
variable {H K : Type} [Console H] [Console K] {pairing : Pairing H K}
  {first second : Environment} {firstMode secondMode : Mode} {exact : Prop} {bound : Nat}
  (parallel : Parallel pairing first second firstMode secondMode)

open Pairing (tracks_pure tracks_throw tracks_advance tracks_skip tracks_expect)

include parallel

section
variable {left : Attempt (Desk H) Value} {right : Attempt (Desk K) Value}
  (nested : ∀ bound, pairing.Tracks exact bound (bound - 1) pairing.Alike left right)
include nested

theorem tracks_number :
    pairing.Tracks exact bound (bound - 1)
      (fun index other => pairing.Alike (.number index) (.number other))
      (number left) (number right) := by
  apply (nested bound).bind
  intro value other alike
  have kind := parallel.isText _ _ alike
  rcases value with value | codes <;> rcases other with other | others
  · exact tracks_pure alike
  · cases kind
  · cases kind
  · exact tracks_throw parallel.both _

theorem tracks_subscript :
    pairing.Tracks exact bound bound
      (fun index other => pairing.Alike (.number index) (.number other))
      (subscript left) (subscript right) := by
  apply (tracks_expect parallel.both _).bind
  intro _ _ _
  apply (tracks_number parallel nested).bind
  intro index other alike
  apply ((tracks_expect parallel.both _).mono _).bind
  · exact fun _ _ _ => tracks_pure alike
  · omega

theorem tracks_argument (function : Function) :
    pairing.Tracks exact bound bound
      (fun value other => pairing.Alike value other ∧ value.isText = function.takesText)
      (argument left function) (argument right function) := by
  unfold argument
  split
  · apply (tracks_expect parallel.both _).bind
    intro _ _ _
    apply (nested _).bind
    intro value other alike
    apply ((tracks_expect parallel.both _).mono _).bind
    · intro _ _ _
      rw [parallel.isText _ _ alike]
      split
      next typed => exact tracks_pure ⟨alike, typed⟩
      next => exact tracks_throw parallel.both _
    · omega
  next bare =>
    refine tracks_pure ⟨parallel.alike _, ?_⟩
    cases function <;> first | rfl | exact absurd rfl bare

theorem tracks_callFunction (function : Function) :
    pairing.Tracks exact bound bound pairing.Alike (callFunction first firstMode left function)
      (callFunction second secondMode right function) := by
  rw [callFunction_eq, callFunction_eq]
  refine (tracks_argument parallel nested function).bind fun value other both => ?_
  intro desk opposite along
  have replies := parallel.reply function value other both.1 both.2 desk.console
    opposite.console along.console
  simp only [Desk.consulting, Attempt.within_apply]
  generalize reply first firstMode function value desk.console = outcome at replies ⊢
  generalize reply second secondMode function other opposite.console = arrival at replies ⊢
  rcases outcome with ⟨fault | result, console⟩ <;> rcases arrival with ⟨fault' | result', terminal⟩
  · exact replies
  · exact replies
  · exact replies
  · exact ⟨replies.1, along.scanner, along.same, along.capacity, along.pending, replies.2⟩

theorem tracks_subscriptOf (use : NameUse) :
    pairing.Tracks exact bound bound
      (fun index other => pairing.Alike (.number index) (.number other))
      (subscriptOf left use) (subscriptOf right use) := by
  cases use with
  | array => exact tracks_subscript parallel nested
  | text =>
      exact ((tracks_skip parallel.both 1).mono (Nat.sub_le _ _)).bind fun _ _ _ =>
        tracks_pure (parallel.alike _)
  | number | textFunction => exact tracks_pure (parallel.alike _)

theorem tracksAt_reference {code : Code} (more : code ≠ Code.newline) :
    pairing.TracksAt exact bound (bound - 1) code pairing.Alike (reference first firstMode left)
      (reference second secondMode right) := by
  rw [reference_eq, reference_eq]
  apply (Pairing.tracksAt_readName parallel.both more).bind
  rintro ⟨name, use⟩ _ ⟨rfl, some⟩
  dsimp only at some ⊢
  have skipped : pairing.Tracks exact bound (bound - 1) Eq (Desk.skip name.length)
      (Desk.skip name.length) := (tracks_skip parallel.both _).mono (by omega)
  cases Function.ofName? name use with
  | some function =>
      apply skipped.bind
      intro _ _ _
      split
      · exact ((tracks_skip parallel.both 1).mono (Nat.sub_le _ _)).bind fun _ _ _ =>
          tracks_callFunction parallel nested function
      · exact tracks_callFunction parallel nested function
  | none =>
      dsimp only
      split
      · exact tracks_throw parallel.both _
      · apply skipped.bind
        intro _ _ _
        apply (tracks_subscriptOf parallel nested use).bind
        intro index other alike
        refine (Pairing.tracks_ofExcept (parallel.fetched name use _ _ alike)).bind
          fun value other alike => ?_
        exact Pairing.tracks_look_bind fun code => (tracks_pure alike).at code

theorem tracksAt_operand (code : Code) :
    pairing.TracksAt exact bound (bound - 1) code pairing.Alike
      (operand first firstMode left code) (operand second secondMode right code) := by
  unfold operand
  rw [parallel.config]
  split
  next digit =>
    apply (Pairing.tracksAt_scanning parallel.both (Scanner.abreast_readNumber _ digit)).bind
    rintro number _ rfl
    exact tracks_pure (parallel.alike _)
  next =>
    split
    next quote =>
      subst quote
      apply (Pairing.tracksAt_scanning parallel.both Scanner.abreast_readText).bind
      rintro codes _ rfl
      exact tracks_pure (parallel.alike _)
    next =>
      split
      next =>
        refine Pairing.Tracks.at ((tracks_advance parallel.both).bind fun _ _ _ => ?_) code
        apply (nested _).bind
        intro value other alike
        refine ((tracks_expect parallel.both _).bind fun _ _ _ => tracks_pure alike).mono ?_
        omega
      next =>
        split
        next letter =>
          refine tracksAt_reference parallel nested ?_
          rintro rfl
          cases letter
        next => exact (tracks_throw parallel.both _).at code

end

theorem tracks_readOperator :
    pairing.Tracks exact bound bound Eq (readOperator : Attempt (Desk H) Operator)
      readOperator := by
  unfold readOperator
  refine Pairing.tracks_look_bind fun code => Pairing.Tracks.at ?_ code
  dsimp only
  split
  · exact ((tracks_advance parallel.both).mono (Nat.sub_le _ _)).bind fun _ _ _ =>
      tracks_pure rfl
  · exact tracks_pure rfl

theorem results_foldAll (operator : Operator) {stack opposite : List Pending}
    (pending : List.Forall₂ pairing.PendAlike stack opposite) {value other : Value}
    (alike : pairing.Alike value other) :
    pairing.toExits.Results pairing.FoldAlike
      (foldAll first firstMode operator stack value)
      (foldAll second secondMode operator opposite other) := by
  induction pending generalizing value other with
  | nil =>
      simp only [foldAll]
      split
      · exact .waiting alike .nil
      · exact .ended alike .nil
  | @cons top upper stack opposite alikeTops below inductionHypothesis =>
      simp only [foldAll, alikeTops.priority, alikeTops.operator]
      split
      · exact .waiting alike (.cons alikeTops below)
      · split
        · exact .ended alike below
        · have folded := parallel.fold top upper value other alikeTops alike
          generalize fold first firstMode top value = outcome at folded ⊢
          generalize fold second secondMode upper other = arrival at folded ⊢
          rcases outcome with fault | result <;> rcases arrival with fault' | result'
          · exact folded
          · dsimp only
            generalize foldAll second secondMode operator opposite result' = arrival
            cases arrival with
            | error fault' => exact .inr (.inl folded)
            | ok folding => exact folded
          · dsimp only
            generalize foldAll first firstMode operator stack result = outcome
            cases outcome with
            | error fault => exact .inr (.inr folded)
            | ok folding => exact folded
          · exact inductionHypothesis folded

/-- Every turn takes up a code of the line, so any numbers of turns above those left will do. -/
theorem tracks_operations {left : Attempt (Desk H) Value} {right : Attempt (Desk K) Value}
    (nested : ∀ bound, pairing.Tracks exact bound (bound - 1) pairing.Alike left right)
    {turns others : Nat} (enough : bound < turns) (suffice : bound < others) :
    pairing.Tracks exact bound (bound - 1) pairing.Alike
      (operations first firstMode left turns) (operations second secondMode right others) := by
  induction turns generalizing bound others with
  | zero => omega
  | succ turns inductionHypothesis =>
      obtain ⟨others, rfl⟩ : ∃ fewer, others = fewer + 1 := ⟨others - 1, by omega⟩
      refine Pairing.tracks_look_bind fun code => ?_
      by_cases ends : code = Code.newline
      · subst ends
        exact (tracks_throw parallel.both _).at _
      -- There is a code ahead, and once it is taken up the bound on the line is lower by one.
      refine Pairing.related_of_pos ends fun some => ?_
      have further : pairing.Tracks exact (bound - 1) (bound - 1) pairing.Alike
          (operations first firstMode left turns) (operations second secondMode right others) :=
        (inductionHypothesis (by omega) (by omega)).mono (Nat.sub_le _ _)
      dsimp only
      cases Pending.ofCode? code with
      | some pending =>
          have alike : pairing.PendAlike pending pending := ⟨parallel.alike _, rfl, rfl⟩
          refine Pairing.Tracks.at ?_ code
          exact (tracks_advance parallel.both).bind fun _ _ _ =>
            (Pairing.tracks_push parallel.both alike).bind fun _ _ _ => further
      | none =>
          apply (tracksAt_operand parallel nested code).bind
          intro value other alike
          apply (tracks_readOperator parallel).bind
          rintro operator _ rfl
          intro desk opposite along
          rw [Attempt.bind_apply, Attempt.bind_apply, Attempt.get_apply, Attempt.get_apply]
          dsimp only
          have folds := results_foldAll parallel operator along.pending alike
          generalize foldAll first firstMode operator desk.calculator.items value =
            outcome at folds ⊢
          generalize foldAll second secondMode operator opposite.calculator.items other =
            arrival at folds ⊢
          rcases outcome with fault | folded <;> rcases arrival with fault' | folded'
          · exact folds
          · exact Attempt.together_of_left folds desk _
          · exact Attempt.together_of_right folds _ opposite
          · cases folds with
            | ended alike below =>
                exact ⟨alike, along.scanner, along.same, along.capacity, below, along.console⟩
            | @waiting value other stack above alike pending =>
                have alikeTops : pairing.PendAlike ⟨value, operator, operator.priority⟩
                    ⟨other, operator, operator.priority⟩ := ⟨alike, rfl, rfl⟩
                exact ((Pairing.tracks_push parallel.both alikeTops).bind fun _ _ _ => further)
                  _ _ ⟨along.scanner, along.same, along.capacity, pending, along.console⟩

/-- Evaluations of one expression keep to its line, wherever the line stands. -/
theorem tracks_evaluateWithin (levels bound : Nat) :
    pairing.Tracks exact bound (bound - 1) pairing.Alike (evaluateWithin first firstMode levels)
      (evaluateWithin second secondMode levels) := by
  induction levels generalizing bound with
  | zero => exact tracks_throw parallel.both _
  | succ levels inductionHypothesis =>
      have alike : pairing.PendAlike .sentinel .sentinel := ⟨parallel.alike _, rfl, rfl⟩
      refine Pairing.tracks_restoring
        ((Pairing.tracks_push parallel.both alike).bind fun _ _ _ => ?_)
      intro desk opposite along
      have within := along.scanner.within
      have turns : desk.scanner.line.length ≤ desk.scanner.rest.length :=
        desk.scanner.codesLeft_le_length
      have others : opposite.scanner.line.length ≤ opposite.scanner.rest.length :=
        opposite.scanner.codesLeft_le_length
      rw [along.scanner.line] at others
      have tight : pairing.Along exact desk.scanner.line.length desk opposite :=
        { along with scanner := ⟨along.scanner.line, Nat.le_refl _⟩ }
      rw [Attempt.bind_apply, Attempt.bind_apply, Attempt.get_apply, Attempt.get_apply]
      dsimp only
      exact ((tracks_operations parallel inductionHypothesis (by omega) (by omega)).mono
        (Nat.sub_le_sub_right within 1)) desk opposite tight

/-- Evaluations of one expression keep side by side, however deep it is nested. -/
theorem keeps_evaluateWithin (levels : Nat) :
    pairing.Keeps pairing.Alike (evaluateWithin first firstMode levels)
      (evaluateWithin second secondMode levels) := by
  intro desk opposite beside
  have along : pairing.Along True desk.scanner.line.length desk opposite :=
    ⟨⟨by rw [beside.scanner], Nat.le_refl _⟩, fun _ => beside.scanner, beside.capacity,
      beside.pending, beside.console⟩
  refine (tracks_evaluateWithin parallel levels _ desk opposite along).weaken (.refl _) ?_
  intro value other both
  exact ⟨both.1, both.2.same trivial, both.2.capacity, both.2.pending, both.2.console⟩

end

end Expression
end HomeBasic
