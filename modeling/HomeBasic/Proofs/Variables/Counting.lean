import HomeBasic.Proofs.Variables.Loops

/-!
# Loops count

A loop that is set up counts by one each time, whatever happens to other variables in between:
it goes on where it resumes as long as it does not pass its limit, and when no word holds the
next number it stays at the largest. So its body runs as often as there are numbers from the
start to the limit, and once if there are none. What was never set up cannot be counted up.

Main statement: `arm_counts`.
-/

namespace HomeBasic
namespace Variables

variable {store after : Variables} {name : Name} {value limit : Int} {resume : Nat}

/-- Sets a loop up: the number to count from, then the limit and the line to resume at. -/
def arm (name : Name) (start limit : Int) (resume : Nat) : Attempt Variables Unit := do
  assignNumber name start
  startLoop name limit resume

/-- The store after changes, whether they were refused or not. -/
def changed (store : Variables) (changes : List Change) : Variables :=
  changes.foldl (fun store change => (change.perform store).2) store

/-- A change counts the loop of a name up, or leaves the numbers of that name alone. -/
def Change.Counts (name : Name) (change : Change) : Prop :=
  change = .stepLoop name ∨ change.key ≠ (name, .numeric)

/-- How often changes count the loop of a name up. -/
def stepsOf (name : Name) (changes : List Change) : Nat :=
  changes.countP fun change => change.key = (name, .numeric)

/--
A loop runs its bodies, one set of changes for each time: after each of them it is counted up,
and while that yields a line to resume at the next one follows. The run ends well when the
limit is passed, or with the fault of the step.
-/
inductive Repeats (name : Name) : List (List Change) → Except Fault Unit → Variables → Prop
  | passed {store after : Variables} {body : List Change} :
      stepLoop name (store.changed body) = (.ok none, after) → Repeats name [body] (.ok ()) store
  | failed {store after : Variables} {body : List Change} {fault : Fault} :
      stepLoop name (store.changed body) = (.error fault, after) →
      Repeats name [body] (.error fault) store
  | again {store after : Variables} {body : List Change} {line : Nat}
      {bodies : List (List Change)} {outcome : Except Fault Unit} :
      stepLoop name (store.changed body) = (.ok (some line), after) →
      Repeats name bodies outcome after → Repeats name (body :: bodies) outcome store

/-- The step behind the first body tells whether there are more of them. -/
theorem repeats_cons_iff {body : List Change} {bodies : List (List Change)}
    {outcome : Except Fault Unit} :
    Repeats name (body :: bodies) outcome store ↔
      match stepLoop name (store.changed body) with
      | (.ok (some _), after) => Repeats name bodies outcome after
      | (.ok none, _) => bodies = [] ∧ outcome = .ok ()
      | (.error fault, _) => bodies = [] ∧ outcome = .error fault := by
  constructor
  · rintro (run | run | ⟨run, rest⟩)
    · rw [run]
      exact ⟨rfl, rfl⟩
    · rw [run]
      exact ⟨rfl, rfl⟩
    · rw [run]
      exact rest
  · rcases run : stepLoop name (store.changed body) with ⟨fault | _ | line, after⟩
    · rintro ⟨rfl, rfl⟩
      exact .failed run
    · rintro ⟨rfl, rfl⟩
      exact .passed run
    · exact .again run

/-! ## Setting up -/

/-- A loop that is set up holds what it was set up with. -/
theorem get?_arm {start : Int} (set : arm name start limit resume store = (.ok (), after)) :
    after.get? name .numeric = some (.loop start limit resume) ∧ after.size = store.size := by
  obtain ⟨_, assigned, first, started⟩ := Attempt.exists_of_bind_eq_ok set
  have sizes := (changesOnly_assignNumber name start store).size
  have later := (changesOnly_startLoop name limit resume assigned).size
  rw [first] at sizes
  rw [started] at later
  obtain ⟨value, counted, held⟩ := get?_startLoop started
  have number : assigned.number name = .ok start := by
    rw [number, get?_assignNumber first]
    rcases store.get? name .numeric with _ | ⟨_ | _⟩ <;> rfl
  cases number.symm.trans counted
  exact ⟨held, later.trans sizes⟩

/-! ## Counting -/

/-- Changes elsewhere leave a loop as it is. -/
theorem get?_changed {changes : List Change}
    (elsewhere : ∀ change ∈ changes, change.key ≠ (name, .numeric)) :
    (store.changed changes).get? name .numeric = store.get? name .numeric ∧
      (store.changed changes).size = store.size := by
  induction changes generalizing store with
  | nil => exact ⟨rfl, rfl⟩
  | cons change changes inductionHypothesis =>
      obtain ⟨first, others⟩ := List.forall_mem_cons.mp elsewhere
      have alike := changesOnly_perform change store
      obtain ⟨kept, size⟩ := @inductionHypothesis (change.perform store).2 others
      exact ⟨kept.trans (alike.get? name .numeric first.symm), size.trans alike.size⟩

section
variable (held : store.get? name .numeric = some (.loop value limit resume))
  (fits : store.size.Fits value)
include held fits

/-- A loop that is counted up holds the next number, as long as a word holds that. -/
theorem stepLoop_of_lt (room : value < store.size.maximum) :
    ∃ after, stepLoop name store =
        (.ok (if value + 1 ≤ limit then some resume else none), after) ∧
      after.get? name .numeric = some (.loop (value + 1) limit resume) ∧
      after.size = store.size := by
  have next : store.size.Fits (value + 1) := ⟨by have := fits.1; omega, room⟩
  have size := (changesOnly_stepLoop name store).size
  rcases exists_stepLoop held with ⟨_, after, counted, run, kept⟩ | ⟨_, large, _⟩
  · obtain ⟨-, rfl⟩ := WordSize.checked_eq_ok_iff.mp counted
    rw [run] at size
    exact ⟨after, run, kept, size⟩
  · exact absurd next (WordSize.checked_eq_error_iff.mp large).1

omit fits in
/-- At the largest number a loop cannot be counted up, and stays as it is. -/
theorem stepLoop_of_eq (largest : value = store.size.maximum) :
    stepLoop name store = (.error .arithmeticOverflow, store) := by
  rcases exists_stepLoop held with ⟨_, _, counted, _, _⟩ | ⟨fault, large, run⟩
  · have := (WordSize.checked_eq_ok_iff.mp counted).1.2
    omega
  · obtain ⟨-, rfl⟩ := WordSize.checked_eq_error_iff.mp large
    exact run

/-- A change counts a loop up by its steps, up to the largest number. -/
theorem get?_perform_of_counts {change : Change} (counts : change.Counts name) :
    ∃ number, number = min (value + stepsOf name [change]) store.size.maximum ∧
      store.size.Fits number ∧
      (change.perform store).2.get? name .numeric = some (.loop number limit resume) ∧
      (change.perform store).2.size = store.size := by
  have least := fits.1
  have most := fits.2
  rcases counts with rfl | elsewhere
  · have once : stepsOf name [.stepLoop name] = 1 := List.countP_cons_of_pos (by simp [Change.key])
    by_cases room : value < store.size.maximum
    · obtain ⟨after, run, kept, size⟩ := stepLoop_of_lt held fits room
      have step : (Change.perform (.stepLoop name) store).2 = after := congrArg Prod.snd run
      rw [step]
      exact ⟨value + 1, by omega, ⟨by omega, room⟩, kept, size⟩
    · have run := stepLoop_of_eq held (Int.le_antisymm most (Int.not_lt.mp room))
      have step : (Change.perform (.stepLoop name) store).2 = store := congrArg Prod.snd run
      rw [step]
      exact ⟨value, by omega, fits, held, rfl⟩
  · have alike := changesOnly_perform change store
    have never : stepsOf name [change] = 0 := List.countP_cons_of_neg (by simpa using elsewhere)
    exact ⟨value, by omega, fits, (alike.get? name .numeric elsewhere.symm).trans held, alike.size⟩

/-- A loop that is counted up among other changes counts its steps, up to the largest number. -/
theorem get?_counted {changes : List Change} (counts : ∀ change ∈ changes, change.Counts name) :
    (store.changed changes).get? name .numeric =
        some (.loop (min (value + stepsOf name changes) store.size.maximum) limit resume) ∧
      (store.changed changes).size = store.size := by
  induction changes generalizing store value with
  | nil =>
      have most := fits.2
      have same : min (value + stepsOf name []) store.size.maximum = value := by
        rw [stepsOf, List.countP_nil]
        omega
      rw [same]
      exact ⟨held, rfl⟩
  | cons change changes inductionHypothesis =>
      obtain ⟨first, others⟩ := List.forall_mem_cons.mp counts
      obtain ⟨number, counted, fits, kept, size⟩ := get?_perform_of_counts held fits first
      obtain ⟨later, sizes⟩ := inductionHypothesis kept (size ▸ fits) others
      have steps : stepsOf name (change :: changes) =
          stepsOf name [change] + stepsOf name changes := by
        rw [stepsOf, ← List.singleton_append, List.countP_append]
        rfl
      have same : min (number + stepsOf name changes) store.size.maximum =
          min (value + stepsOf name (change :: changes)) store.size.maximum := by omega
      rw [size, same] at later
      exact ⟨later, sizes.trans size⟩

/-! ## Bodies -/

/-- A loop whose bodies leave it alone runs as often as it counts up to its limit. -/
theorem repeats_iff {bodies : List (List Change)} {outcome : Except Fault Unit}
    (limitFits : limit ≤ store.size.maximum)
    (elsewhere : ∀ body ∈ bodies, ∀ change ∈ body, change.key ≠ (name, .numeric)) :
    Repeats name bodies outcome store ↔
      (bodies.length : Int) = max 1 (limit - value + 1) ∧
        outcome = if value < store.size.maximum ∧ limit < store.size.maximum then .ok ()
          else .error .arithmeticOverflow := by
  -- A body leaves the loop alone, so the step behind it counts up from where the last one did.
  induction bodies generalizing store value with
  | nil =>
      refine iff_of_false nofun fun both => ?_
      have := both.1
      simp only [List.length_nil] at this
      omega
  | cons body bodies inductionHypothesis =>
      obtain ⟨first, others⟩ := List.forall_mem_cons.mp elsewhere
      obtain ⟨kept, size⟩ := @get?_changed store name _ first
      rw [held] at kept
      have fitsBefore : (store.changed body).size.Fits value := size ▸ fits
      by_cases room : value < store.size.maximum
      · obtain ⟨after, run, counted, sizes⟩ := stepLoop_of_lt kept fitsBefore (size ▸ room)
        rw [size] at sizes
        have onward := @inductionHypothesis after (value + 1) counted
          (sizes ▸ ⟨by have := fits.1; omega, room⟩) (sizes ▸ limitFits) others
        rw [sizes] at onward
        rw [repeats_cons_iff, run]
        by_cases more : value + 1 ≤ limit
        · rw [if_pos more]
          have condition : value + 1 < store.size.maximum ∧ limit < store.size.maximum ↔
              value < store.size.maximum ∧ limit < store.size.maximum := by omega
          dsimp only
          rw [onward, if_congr condition rfl rfl, List.length_cons]
          exact and_congr_left fun _ => by omega
        · rw [if_neg more]
          dsimp only
          rw [if_pos (by omega), ← List.length_eq_zero_iff, List.length_cons]
          exact and_congr_left fun _ => by omega
      · have largest : value = store.size.maximum := Int.le_antisymm fits.2 (Int.not_lt.mp room)
        rw [repeats_cons_iff, stepLoop_of_eq kept (size ▸ largest)]
        dsimp only
        rw [if_neg (by omega), ← List.length_eq_zero_iff, List.length_cons]
        exact and_congr_left fun _ => by omega

end

/-! ## Names without a loop -/

/-- A change starts no loop of a name, if it does not set one up. -/
theorem resume?_perform {change : Change}
    (other : ∀ limit resume, change ≠ .startLoop name limit resume) :
    (change.perform store).2.resume? name = store.resume? name := by
  have unanswered {step : Attempt Variables Unit} (keeps : KeepsLoops step) :
      ((step >>= fun _ => pure (none : Option Nat)) store).2.resume? name =
        store.resume? name := by
    rw [Represents.bind_none_apply, keeps.resume?_eq]
  cases change with
  | assignNumber name value => exact unanswered (keepsLoops_assignNumber name value)
  | assignText name codes => exact unanswered (keepsLoops_assignText name codes)
  | assignElement name index value => exact unanswered (keepsLoops_assignElement name index value)
  | declareArray name maxIndex => exact unanswered (keepsLoops_declareArray name maxIndex)
  | stepLoop name => exact congrFun ((keepsLoops_stepLoop name).resume?_eq store) _
  | startLoop started limit resume =>
      have alike := changesOnly_perform (.startLoop started limit resume) store
      rw [resume?, resume?, alike.get? name .numeric]
      intro same
      obtain rfl : name = started := congrArg Prod.fst same
      exact other limit resume rfl

/-- A name that has no loop gets none, if none is set up. -/
theorem resume?_operated {operations : List Operation}
    (other : ∀ limit resume, .change (.startLoop name limit resume) ∉ operations)
    (none : store.resume? name = none) :
    (operations.foldl operate store).resume? name = .none := by
  induction operations generalizing store with
  | nil => exact none
  | cons operation operations inductionHypothesis =>
      refine inductionHypothesis (fun limit resume member =>
        other limit resume (List.mem_cons_of_mem _ member)) ?_
      cases operation with
      | clear => rfl
      | change change =>
          refine (resume?_perform fun limit resume same => ?_).trans none
          exact other limit resume (by rw [same]; exact List.mem_cons_self)

/-! ## Loops -/

/--
A loop counts up by one each time, whatever else is changed in between.

It goes on where it resumes while the number is within the limit, and when no word holds the
next number it overflows and stays as it is. Its body is run as often as there are numbers from
the start to the limit, but at least once; the run ends well, but for the largest number. A
name that was never set up, or was not since the store was cleared, cannot be counted up.
-/
theorem arm_counts {armed : Variables} {start : Int} (startFits : store.size.Fits start)
    (limitFits : store.size.Fits limit)
    (set : arm name start limit resume store = (.ok (), armed)) :
    (∀ changes : List Change, (∀ change ∈ changes, change.Counts name) →
      let before := armed.changed changes
      let number := start + (stepsOf name changes + 1)
      (number ≤ store.size.maximum →
        ∃ after, stepLoop name before =
            (.ok (if number ≤ limit then some resume else none), after) ∧
          after.number name = .ok number) ∧
      (store.size.maximum < number →
        stepLoop name before = (.error .arithmeticOverflow, before) ∧
          before.number name = .ok store.size.maximum)) ∧
    (∀ (bodies : List (List Change)) (outcome : Except Fault Unit),
      (∀ body ∈ bodies, ∀ change ∈ body, change.key ≠ (name, .numeric)) →
        (Repeats name bodies outcome armed ↔
          (bodies.length : Int) = max 1 (limit - start + 1) ∧
            outcome = if start < store.size.maximum ∧ limit < store.size.maximum then .ok ()
              else .error .arithmeticOverflow)) ∧
    ∀ (other : Variables) (operations : List Operation),
      (∀ bound line, .change (.startLoop name bound line) ∉ operations) →
        let cleared := operations.foldl operate other.clear
        stepLoop name cleared = (.error .nextWithoutFor, cleared) ∧
          (other.resume? name = none →
            let unarmed := operations.foldl operate other
            stepLoop name unarmed = (.error .nextWithoutFor, unarmed)) := by
  obtain ⟨held, size⟩ := get?_arm set
  rw [← size] at startFits limitFits ⊢
  refine ⟨fun changes counts => ?_, fun bodies outcome elsewhere => ?_,
    fun other operations never => ⟨?_, fun unarmed => ?_⟩⟩
  · obtain ⟨counted, sizes⟩ := get?_counted held startFits counts
    have numberOf {store : Variables} {value : Int}
        (held : store.get? name .numeric = some (.loop value limit resume)) :
        store.number name = .ok value := by
      rw [number, held]
    have least := startFits.1
    constructor
    · intro room
      have same : min (start + stepsOf name changes) armed.size.maximum =
          start + stepsOf name changes := by omega
      rw [same] at counted
      obtain ⟨after, run, kept, _⟩ := stepLoop_of_lt counted (sizes ▸ ⟨by omega, by omega⟩)
        (sizes ▸ (by omega))
      rw [Int.add_assoc] at run kept
      exact ⟨after, run, numberOf kept⟩
    · intro full
      have largest : min (start + stepsOf name changes) armed.size.maximum =
          armed.size.maximum := by omega
      rw [largest] at counted
      exact ⟨stepLoop_of_eq counted (by rw [sizes]), numberOf counted⟩
  · exact repeats_iff held startFits limitFits.2 elsewhere
  · exact stepLoop_of_resume? (resume?_operated never rfl)
  · exact stepLoop_of_resume? (resume?_operated never unarmed)

/-- A loop from 1 to 3 counts among other changes, and its body is run three times. -/
theorem arm_counts_toThree :
    let name : Name := [0x21]
    let body : List Change := [.assignText name [0x22], .declareArray [0x22] 4]
    let changes := body ++ [.stepLoop name, .assignNumber [0x22] 7]
    let armed := (arm name 1 3 20 (empty .short 60)).2
    (arm name 1 3 20 (empty .short 60)).1 = .ok () ∧
      WordSize.short.Fits 1 ∧ WordSize.short.Fits 3 ∧
      (∀ change ∈ changes, change.Counts name) ∧
      (stepLoop name (armed.changed changes)).1 = .ok (some 20) ∧
      Repeats name [body, body, body] (.ok ()) armed := by
  intro name body changes armed
  have elsewhere : ∀ change ∈ body, change.key ≠ (name, .numeric) := by
    simp [body, name, Change.key]
  have counts : ∀ change ∈ changes, change.Counts name := by
    simp [changes, body, name, Change.Counts, Change.key]
  obtain ⟨steps, bodies, -⟩ := @arm_counts (empty .short 60) name 3 20 armed 1 (by decide)
    (by decide) rfl
  obtain ⟨after, run, -⟩ := (steps changes counts).1 (by decide)
  refine ⟨rfl, by decide, by decide, counts, ?_, ?_⟩
  · rw [run]
    rfl
  · exact (bodies [body, body, body] (.ok ()) (by simpa using elsewhere)).mpr ⟨by decide, rfl⟩

end Variables
end HomeBasic
