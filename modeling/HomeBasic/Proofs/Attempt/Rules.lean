import HomeBasic.Attempt

/-!
# Rules for steps that may fail

`Sustains` says that a step keeps to an invariant, whether it ends well or fails, and
`Confined` with which faults it fails. `Related` runs two steps side by side: as long
as both end well they stay together, and `Exits` names the ways in which they may stop.
`Agrees` is the case of two steps that do the same, but for the memory that one of
them may lack.

Main statements: all of these are closed under one step after another (`Sustains.bind`,
`Confined.bind`, `Related.bind`, `Agrees.bind`).
-/

namespace HomeBasic
namespace Attempt

variable {σ τ α β γ δ : Type}

/-! ## One step -/

/-- What a step came to is as it should be. -/
def Meets (after : α → σ → Prop) (failed : Fault → σ → Prop) : Except Fault α × σ → Prop
  | (.ok value, reached) => after value reached
  | (.error fault, reached) => failed fault reached

/-- A step leaves an invariant of the state alone, and what it yields is as it should be. -/
def Sustains (invariant : σ → Prop) (step : Attempt σ α) (yields : α → Prop) : Prop :=
  ∀ state, invariant state →
    Meets (fun value reached => yields value ∧ invariant reached)
      (fun _ reached => invariant reached) (step state)

theorem Meets.bind {step : Attempt σ α} {next : α → Attempt σ β} {state : σ}
    {middle : α → σ → Prop} {after : β → σ → Prop} {failed : Fault → σ → Prop}
    (first : Meets middle failed (step state))
    (rest : ∀ value reached, middle value reached → Meets after failed (next value reached)) :
    Meets after failed ((step >>= next) state) := by
  rw [bind_apply]
  generalize step state = outcome at first ⊢
  rcases outcome with ⟨fault | value, changed⟩
  · exact first
  · exact rest value changed first

section
variable {invariant : σ → Prop}

theorem Sustains.bind {step : Attempt σ α} {next : α → Attempt σ β}
    {middle : α → Prop} {yields : β → Prop}
    (first : Sustains invariant step middle)
    (rest : ∀ value, middle value → Sustains invariant (next value) yields) :
    Sustains invariant (step >>= next) yields := by
  intro state holds
  have reached := first state holds
  rw [bind_apply]
  generalize step state = outcome at reached ⊢
  rcases outcome with ⟨fault | value, changed⟩
  · exact reached
  · exact rest value reached.1 changed reached.2

theorem Sustains.weaken {step : Attempt σ α} {yields weaker : α → Prop}
    (sustains : Sustains invariant step yields) (weakens : ∀ value, yields value → weaker value) :
    Sustains invariant step weaker := by
  intro state holds
  have reached := sustains state holds
  generalize step state = outcome at reached ⊢
  rcases outcome with ⟨fault | value, changed⟩
  · exact reached
  · exact ⟨weakens value reached.1, reached.2⟩

/-- However a step ends that leaves an invariant alone, the invariant holds. -/
theorem Sustains.kept {step : Attempt σ α} {yields : α → Prop}
    (sustains : Sustains invariant step yields) {state : σ} (holds : invariant state) :
    invariant (step state).2 := by
  have reached := sustains state holds
  generalize step state = outcome at reached ⊢
  rcases outcome with ⟨fault | value, changed⟩
  · exact reached
  · exact reached.2

/-- A step leaves an invariant alone if it holds afterwards, however the step ends. -/
theorem sustains_of_kept {step : Attempt σ α}
    (kept : ∀ state, invariant state → invariant (step state).2) :
    Sustains invariant step fun _ => True := by
  intro state holds
  have reached := kept state holds
  generalize step state = outcome at reached ⊢
  rcases outcome with ⟨fault | value, changed⟩
  · exact reached
  · exact ⟨trivial, reached⟩

theorem sustains_true (step : Attempt σ α) : Sustains (fun _ => True) step fun _ => True := by
  intro state _
  rcases step state with ⟨fault | value, reached⟩ <;> simp [Meets]

theorem sustains_pure {yields : α → Prop} {value : α} (holds : yields value) :
    Sustains invariant (pure value) yields :=
  fun _ start => ⟨holds, start⟩

theorem sustains_throw {yields : α → Prop} (fault : Fault) :
    Sustains invariant (throw fault) yields :=
  fun _ start => start

/-- A step with a condition that it fails under keeps to an invariant if the rest of it does. -/
theorem sustains_guard {condition : Prop} [Decidable condition] {fault : Fault}
    {rest : PUnit → Attempt σ α} {yields : α → Prop}
    (otherwise : ¬condition → Sustains invariant (rest ⟨⟩) yields) :
    Sustains invariant (if condition then throw fault >>= rest else rest ⟨⟩) yields := by
  split
  · exact fun _ start => start
  next passed => exact otherwise passed

theorem sustains_ofExcept {yields : α → Prop} {result : Except Fault α}
    (holds : ∀ value, result = .ok value → yields value) :
    Sustains invariant (ofExcept result) yields := by
  intro state start
  cases result with
  | error fault => exact start
  | ok value => exact ⟨holds value rfl, start⟩

theorem sustains_get : Sustains invariant get invariant :=
  fun _ start => ⟨start, start⟩

theorem sustains_set {state : σ} (holds : invariant state) :
    Sustains invariant (set state) fun _ => True :=
  fun _ _ => ⟨trivial, holds⟩

theorem sustains_modify {change : σ → σ}
    (holds : ∀ state, invariant state → invariant (change state)) :
    Sustains invariant (modify change) fun _ => True :=
  fun state start => ⟨trivial, holds state start⟩

theorem sustains_orFault {fault : Fault} {update : σ → Option σ}
    (holds : ∀ state changed, invariant state → update state = some changed → invariant changed) :
    Sustains invariant (orFault fault update) fun _ => True := by
  intro state start
  rw [orFault]
  cases updated : update state with
  | none => exact start
  | some changed => exact ⟨trivial, holds state changed start updated⟩

theorem sustains_within {whole part : Type} {invariant : whole → Prop} {inner : part → Prop}
    {get : whole → part} {set : part → whole → whole} {step : Attempt part α}
    {yields : α → Prop} (sustains : Sustains inner step yields)
    (opens : ∀ state, invariant state → inner (get state))
    (closes : ∀ state changed, invariant state → inner changed → invariant (set changed state)) :
    Sustains invariant (within get set step) yields := by
  intro state start
  have reached := sustains (get state) (opens state start)
  rw [within_apply]
  generalize step (get state) = outcome at reached ⊢
  rcases outcome with ⟨fault | value, changed⟩
  · exact closes state changed start reached
  · exact ⟨reached.1, closes state changed start reached.2⟩

end

/-- A step that ended well after another took over from where that one ended well. -/
theorem exists_of_bind_eq_ok {step : Attempt σ α} {next : α → Attempt σ β} {state reached : σ}
    {value : β} (run : (step >>= next) state = (.ok value, reached)) :
    ∃ middle between, step state = (.ok middle, between) ∧
      next middle between = (.ok value, reached) := by
  rw [bind_apply] at run
  generalize step state = outcome at run ⊢
  rcases outcome with ⟨fault | middle, between⟩
  · cases run
  · exact ⟨middle, between, rfl, run⟩

/-! ## Faults -/

/-- A step fails only with faults that are allowed. -/
def Confined (allowed : Fault → Prop) (step : Attempt σ α) : Prop :=
  ∀ state fault, (step state).1 = .error fault → allowed fault

section
variable {allowed : Fault → Prop}

theorem Confined.bind {step : Attempt σ α} {next : α → Attempt σ β}
    (first : Confined allowed step) (rest : ∀ value, Confined allowed (next value)) :
    Confined allowed (step >>= next) := by
  intro state fault failed
  have reached := first state
  rw [bind_apply] at failed
  generalize step state = outcome at reached failed
  rcases outcome with ⟨other | value, changed⟩
  · cases failed
    exact reached fault rfl
  · exact rest value changed fault failed

theorem confined_pure (value : α) : Confined allowed (pure value : Attempt σ α) := by
  intro state fault failed
  cases failed

theorem confined_throw {fault : Fault} (holds : allowed fault) :
    Confined allowed (throw fault : Attempt σ α) := by
  intro state other failed
  cases failed
  exact holds

theorem confined_guard {condition : Prop} [Decidable condition] {fault : Fault}
    {rest : PUnit → Attempt σ α} (holds : allowed fault) (otherwise : Confined allowed (rest ⟨⟩)) :
    Confined allowed (if condition then throw fault >>= rest else rest ⟨⟩) := by
  split
  · exact (confined_throw holds).bind fun _ => otherwise
  · exact otherwise

theorem confined_ofExcept {result : Except Fault α}
    (holds : ∀ fault, result = .error fault → allowed fault) :
    Confined allowed (ofExcept result : Attempt σ α) :=
  fun _ fault failed => holds fault failed

theorem confined_map {change : α → β} {result : Except Fault α}
    (holds : ∀ fault, result = .error fault → allowed fault) :
    Confined allowed (ofExcept (result.map change) : Attempt σ β) := by
  refine confined_ofExcept fun fault failed => ?_
  cases result with
  | ok value => cases failed
  | error other =>
      cases failed
      exact holds fault rfl

theorem confined_within {whole part : Type} {get : whole → part} {set : part → whole → whole}
    {step : Attempt part α} (confined : Confined allowed step) :
    Confined allowed (within get set step) :=
  fun state fault failed => confined (get state) fault failed

theorem confined_get : Confined allowed (get : Attempt σ σ) := by
  intro state fault failed
  cases failed

theorem confined_set (state : σ) : Confined allowed (set state : Attempt σ PUnit) := by
  intro _ fault failed
  cases failed

theorem confined_modify (change : σ → σ) :
    Confined allowed (modify change : Attempt σ PUnit) := by
  intro state fault failed
  cases failed

theorem confined_ofUpdate (update : σ → α × σ) :
    Confined allowed (ofUpdate update : Attempt σ α) := by
  intro state fault failed
  cases failed

theorem confined_orFault {fault : Fault} {update : σ → Option σ} (holds : allowed fault) :
    Confined allowed (orFault fault update) := by
  intro state other failed
  rw [orFault] at failed
  cases updated : update state with
  | none =>
      rw [updated] at failed
      cases failed
      exact holds
  | some changed =>
      rw [updated] at failed
      cases failed

end

theorem exists_of_map_eq_ok {change : α → β} {result : Except Fault α} {value : β}
    (run : result.map change = .ok value) : ∃ inner, result = .ok inner ∧ value = change inner := by
  cases result with
  | error fault => cases run
  | ok inner =>
      cases run
      exact ⟨inner, rfl, rfl⟩

@[simp] theorem ofExcept_ok (value : α) : (ofExcept (.ok value) : Attempt σ α) = pure value := rfl

@[simp] theorem ofExcept_error (fault : Fault) :
    (ofExcept (.error fault) : Attempt σ α) = throw fault := rfl

/-- What is made of a result may as well be made of it later. -/
theorem ofExcept_map (change : α → β) (result : Except Fault α) :
    (ofExcept (result.map change) : Attempt σ β) = do return change (← ofExcept result) := by
  cases result <;> rfl

/-! ## Two steps -/

/-- The ways in which two steps may stop: one of them alone, whatever the other does, or both. -/
structure Exits where
  left : Fault → Prop
  right : Fault → Prop
  both : Fault → Fault → Prop

/-- Two steps only stop together, and with the same fault. -/
def Exits.same : Exits := ⟨fun _ => False, fun _ => False, Eq⟩

/-- Two results are as they should be. -/
def Exits.Results (exits : Exits) (after : α → β → Prop) :
    Except Fault α → Except Fault β → Prop
  | .ok first, .ok second => after first second
  | .error fault, .ok _ => exits.left fault
  | .ok _, .error fault => exits.right fault
  | .error first, .error second => exits.both first second ∨ exits.left first ∨ exits.right second

theorem Exits.results_refl {exits : Exits} {after : α → α → Prop}
    (both : ∀ fault, exits.both fault fault) (same : ∀ value, after value value)
    (result : Except Fault α) : exits.Results after result result := by
  cases result with
  | ok value => exact same value
  | error fault => exact .inl (both fault)

/-- Exits that take no less. -/
structure Exits.Within (exits wider : Exits) : Prop where
  left : ∀ fault, exits.left fault → wider.left fault
  right : ∀ fault, exits.right fault → wider.right fault
  both : ∀ fault other, exits.both fault other → wider.both fault other

theorem Exits.Within.refl (exits : Exits) : exits.Within exits :=
  ⟨fun _ exit => exit, fun _ exit => exit, fun _ _ exit => exit⟩

theorem Exits.Results.weaken {exits wider : Exits} {after weaker : α → β → Prop}
    {left : Except Fault α} {right : Except Fault β} (results : exits.Results after left right)
    (within : exits.Within wider)
    (weakens : ∀ value other, after value other → weaker value other) :
    wider.Results weaker left right := by
  cases left with
  | ok value =>
      cases right with
      | ok other => exact weakens value other results
      | error fault => exact within.right fault results
  | error fault =>
      cases right with
      | ok other => exact within.left fault results
      | error other =>
          exact results.imp (within.both fault other)
            (.imp (within.left fault) (within.right other))

/-- What two steps came to is as it should be. -/
def Together (exits : Exits) (after : α → σ → β → τ → Prop)
    (left : Except Fault α × σ) (right : Except Fault β × τ) : Prop :=
  exits.Results (fun first second => after first left.2 second right.2) left.1 right.1

/-- From states where `before` holds two steps end in `after`, or they take an exit. -/
def Related
    (exits : Exits)
    (before : σ → τ → Prop)
    (left : Attempt σ α)
    (right : Attempt τ β)
    (after : α → σ → β → τ → Prop) : Prop :=
  ∀ state other, before state other → Together exits after (left state) (right other)

section
variable {exits : Exits} {before : σ → τ → Prop}

theorem together_of_left {after : α → σ → β → τ → Prop} {fault : Fault}
    (exit : exits.left fault) (reached : σ) (outcome : Except Fault β × τ) :
    Together exits after (.error fault, reached) outcome := by
  rcases outcome with ⟨other | value, arrived⟩
  · exact .inr (.inl exit)
  · exact exit

theorem together_of_right {after : α → σ → β → τ → Prop} {fault : Fault}
    (exit : exits.right fault) (outcome : Except Fault α × σ) (arrived : τ) :
    Together exits after outcome (.error fault, arrived) := by
  rcases outcome with ⟨other | value, reached⟩
  · exact .inr (.inr exit)
  · exact exit

/-- Where the first step may fail as it likes, it does not matter how it goes on. -/
theorem together_of_ok {after : α → σ → β → τ → Prop} {value : β} {arrived : τ}
    (left : ∀ fault, exits.left fault)
    (holds : ∀ passed reached, after passed reached value arrived)
    (outcome : Except Fault α × σ) : Together exits after outcome (.ok value, arrived) := by
  rcases outcome with ⟨fault | passed, reached⟩
  · exact left fault
  · exact holds passed reached

theorem Related.bind
    {left : Attempt σ α} {right : Attempt τ β}
    {onLeft : α → Attempt σ γ} {onRight : β → Attempt τ δ}
    {middle : α → σ → β → τ → Prop} {after : γ → σ → δ → τ → Prop}
    (first : Related exits before left right middle)
    (rest : ∀ value other,
      Related exits (middle value · other ·) (onLeft value) (onRight other) after) :
    Related exits before (left >>= onLeft) (right >>= onRight) after := by
  intro state other holds
  have reached := first state other holds
  rw [bind_apply, bind_apply]
  generalize left state = outcome at reached ⊢
  generalize right other = arrival at reached ⊢
  rcases outcome with ⟨fault | value, changed⟩ <;>
    rcases arrival with ⟨fault' | value', changed'⟩
  · exact reached
  · exact together_of_left reached changed _
  · exact together_of_right reached _ changed'
  · exact rest value value' changed changed' reached

/-- Two steps that fail under one condition are related if they are so without it. -/
theorem Related.guard {condition : Prop} [Decidable condition] {fault : Fault}
    {rest : PUnit → Attempt σ α} {others : PUnit → Attempt τ β}
    {after : α → σ → β → τ → Prop} (both : exits.both fault fault)
    (otherwise : ¬condition → Related exits before (rest ⟨⟩) (others ⟨⟩) after) :
    Related exits before (if condition then throw fault >>= rest else rest ⟨⟩)
      (if condition then throw fault >>= others else others ⟨⟩) after := by
  split
  · exact fun _ _ _ => .inl both
  next passed => exact otherwise passed

theorem Related.weaken {wider : Exits} {narrower : σ → τ → Prop} {left : Attempt σ α}
    {right : Attempt τ β} {after weaker : α → σ → β → τ → Prop}
    (related : Related exits before left right after) (within : exits.Within wider)
    (narrows : ∀ state other, narrower state other → before state other)
    (weakens : ∀ value state other opposite, after value state other opposite →
      weaker value state other opposite) :
    Related wider narrower left right weaker := by
  intro state other holds
  exact (related state other (narrows state other holds)).weaken within
    fun value other => weakens value _ other _

end

/-! ## Two steps that do the same -/

/-- Two steps came to the same, unless the first one was out of memory and may be. -/
def Agrees (mayRunOut : Prop) (left right : Except Fault α × σ) : Prop :=
  mayRunOut ∧ left.1 = .error .outOfMemory ∨ left = right

namespace Agrees

variable {mayRunOut : Prop}

theorem refl (outcome : Except Fault α × σ) : Agrees mayRunOut outcome outcome :=
  .inr rfl

theorem eq {left right : Except Fault α × σ} (agrees : Agrees False left right) :
    left = right :=
  agrees.resolve_left fun lost => lost.1

theorem bind {left right : Attempt σ α} {onLeft onRight : α → Attempt σ β} {state : σ}
    (first : Agrees mayRunOut (left state) (right state))
    (rest : ∀ value reached, right state = (.ok value, reached) →
      Agrees mayRunOut (onLeft value reached) (onRight value reached)) :
    Agrees mayRunOut ((left >>= onLeft) state) ((right >>= onRight) state) := by
  rw [bind_apply, bind_apply]
  rcases first with ⟨may, out⟩ | same
  · generalize left state = outcome at out ⊢
    rcases outcome with ⟨fault | value, reached⟩
    · obtain rfl : fault = .outOfMemory := by simpa using out
      exact .inl ⟨may, rfl⟩
    · simp at out
  · rw [same]
    rcases run : right state with ⟨fault | value, reached⟩
    · exact .refl _
    · exact rest value reached run

/-- After the same first step two steps need only agree on what it came to. -/
theorem bind_same {step : Attempt σ α} {onLeft onRight : α → Attempt σ β} {state : σ}
    (rest : ∀ value reached, step state = (.ok value, reached) →
      Agrees mayRunOut (onLeft value reached) (onRight value reached)) :
    Agrees mayRunOut ((step >>= onLeft) state) ((step >>= onRight) state) :=
  bind (.refl _) rest

end Agrees

end Attempt
end HomeBasic
