import HomeBasic.Proofs.Variables.Atomic

/-!
# Where loops resume

Every change of a store leaves all variables alone but one (`ChangesOnly`), and a loop variable
keeps the line that its loop resumes at. Only a step that starts a loop changes where one
resumes: a loop variable that is assigned to keeps its loop, and counting it up does too. This
holds of every store, also of one in which a name occurs twice.

Main statements: what starting a loop leaves (`startLoop_ok`, `startLoop_error`), what counting
one up comes to (`stepLoop_fst`, `exists_stepLoop`, `stepLoop_of_resume?`), and that all other
steps keep every loop (`KeepsLoops`).
-/

namespace HomeBasic

open Attempt (Sustains)

/-- The line that a loop resumes at, if the variable is one of a loop. -/
def Variable.resume? : Variable → Option Nat
  | loop _ _ resume => some resume
  | _ => none

/-- A number that is assigned to stays one. -/
theorem Variable.family_assigned (value : Int) (contents : Variable) :
    (contents.assigned value).family = .numeric := by
  cases contents <;> rfl

namespace Variables

/-- The line that the loop of a name resumes at, if the name is a loop variable. -/
def resume? (store : Variables) (name : Name) : Option Nat :=
  (store.get? name .numeric).bind Variable.resume?

variable {store after : Variables} {name : Name} {family : Family} {position : Nat}
  {record : Record}

theorem resume?_eq_some_iff {resume : Nat} :
    store.resume? name = some resume ↔
      ∃ value limit, store.get? name .numeric = some (.loop value limit resume) := by
  rw [resume?, Option.bind_eq_some_iff]
  constructor
  · rintro ⟨held, found, resumes⟩
    cases held with
    | loop value limit other =>
        cases resumes
        exact ⟨value, limit, found⟩
    | number | array | text => cases resumes
  · rintro ⟨value, limit, found⟩
    exact ⟨_, found, rfl⟩

/-! ## Changes of one record -/

/-- What stands behind the other records is found under its own key alone. -/
theorem get?_append_of_ne {contents : Variable} (used : Nat) {other : Name} {kind : Family}
    (different : (other, kind) ≠ (name, contents.family)) :
    get? { store with used, records := store.records ++ [⟨name, contents⟩] } other kind =
      store.get? other kind := by
  have apart : Record.isFor ⟨name, contents⟩ other kind = false :=
    Bool.eq_false_iff.mpr fun same => different (Record.isFor_iff.mp same).symm
  simp only [get?, List.find?_append]
  cases store.records.find? (·.isFor other kind) with
  | some record => rfl
  | none => rw [Option.none_or, List.find?_singleton, apart]; rfl

/-- A name without a record finds the one that is put behind the others. -/
theorem get?_append_self {contents : Variable} (used : Nat)
    (absent : store.position? name contents.family = none) :
    get? { store with used, records := store.records ++ [⟨name, contents⟩] } name
      contents.family = some contents := by
  have missing : store.records.find? (·.isFor name contents.family) = none :=
    List.find?_eq_none.mpr fun record member => by
      rw [List.findIdx?_eq_none_iff.mp absent record member]
      exact Bool.false_ne_true
  have own : Record.isFor ⟨name, contents⟩ name contents.family = true := Record.isFor_iff.mpr rfl
  simp only [get?, List.find?_append, missing, Option.none_or, List.find?_singleton, own]
  rfl

/-- The contents of the first record of a name change, and nothing else that is looked up. -/
theorem get?_modify (change : Variable → Variable)
    (found : store.position? name family = some position)
    (placed : store.records[position]? = some record)
    (kept : (change record.contents).family = family) (used : Nat) (other : Name)
    (kind : Family) :
    get? { store with
        used
        records := store.records.modify position fun record =>
          { record with contents := change record.contents } } other kind =
      if (other, kind) = (name, family) then some (change record.contents)
      else store.get? other kind := by
  rw [← lookup_contents, contents, table_modify found placed kept]
  split
  next same => rw [same, Finmap.lookup_insert]
  next different =>
    rw [Finmap.lookup_insert_of_ne _ different]
    exact lookup_contents store other kind

/-- A record that is replaced is changed, if there is room for what replaces it. -/
theorem replace_apply (placed : store.records[position]? = some record) (contents : Variable) :
    replace position contents store = (.error .outOfMemory, store) ∨
      ∃ used, replace position contents store =
        (.ok (), { store with
          used
          records := store.records.modify position fun record => { record with contents } }) := by
  simp only [replace, Attempt.bind_apply, Attempt.get_apply, placed, resize]
  split
  next ended =>
    split at ended
    · cases ended
    · cases ended
      exact .inr ⟨_, rfl⟩
  next ended =>
    split at ended
    · cases ended
      exact .inl rfl
    · cases ended

/-- Taking a record away that is not looked for changes nothing that is found. -/
theorem find?_eraseIdx_of_neg {records : List Record} (check : Record → Bool)
    (placed : records[position]? = some record) (other : check record = false) :
    (records.eraseIdx position).find? check = records.find? check := by
  induction records generalizing position with
  | nil => rfl
  | cons first records inductionHypothesis =>
      cases position with
      | zero =>
          cases placed
          rw [List.eraseIdx_cons_zero, List.find?_cons, other]
      | succ position =>
          rw [List.eraseIdx_cons_succ, List.find?_cons, List.find?_cons,
            inductionHypothesis placed]

/-! ## What the steps do -/

theorem assignElement_apply (name : Name) (index value : Int) (store : Variables) :
    assignElement name index value store =
      match store.position? name .array, store.get? name .array with
      | some position, some (.array values) =>
          match elementAt values index with
          | .ok place => overwrite position (fun _ => .array (values.set place value)) store
          | .error fault => (.error fault, store)
      | _, _ => (.error .variableNotFound, store) := by
  simp only [assignElement, Attempt.bind_apply, Attempt.get_apply]
  rcases store.position? name .array with _ | position
  · rfl
  · rcases store.get? name .array with _ | _ | _ | values | _
    case some.array =>
      dsimp only
      rw [Attempt.bind_apply, Attempt.ofExcept_apply]
      cases elementAt values index <;> rfl
    all_goals rfl

theorem startLoop_apply (name : Name) (limit : Int) (resume : Nat) (store : Variables) :
    startLoop name limit resume store =
      match store.position? name .numeric, store.number name with
      | some position, .ok value => replace position (.loop value limit resume) store
      | _, _ => (.error .variableNotFound, store) := by
  simp only [startLoop, Attempt.bind_apply, Attempt.get_apply]
  rcases store.position? name .numeric with _ | position
  · rfl
  · rcases store.number name with fault | value <;> rfl

theorem stepLoop_apply (name : Name) (store : Variables) :
    stepLoop name store =
      match store.position? name .numeric, store.get? name .numeric with
      | some position, some (.loop value limit resume) =>
          match store.size.checked (value + 1) with
          | .ok next =>
              (.ok (if next ≤ limit then some resume else none),
                (overwrite position (fun _ => .loop next limit resume) store).2)
          | .error fault => (.error fault, store)
      | _, _ => (.error .nextWithoutFor, store) := by
  simp only [stepLoop, Attempt.bind_apply, Attempt.get_apply]
  rcases store.position? name .numeric with _ | position
  · rfl
  · rcases store.get? name .numeric with _ | _ | ⟨value, limit, resume⟩ | _ | _
    case some.loop =>
      dsimp only
      rw [Attempt.bind_apply, Attempt.ofExcept_apply]
      cases store.size.checked (value + 1) <;> rfl
    all_goals rfl

/-! ## Steps that change one variable -/

/-- Two stores have words of the same size, and the same variables but for that of a key. -/
structure AlikeBut (key : Key) (store changed : Variables) : Prop where
  size : changed.size = store.size
  get? : ∀ name family, (name, family) ≠ key → changed.get? name family = store.get? name family

namespace AlikeBut

theorem refl (key : Key) (store : Variables) : AlikeBut key store store :=
  ⟨rfl, fun _ _ _ => rfl⟩

theorem trans {key : Key} {middle : Variables} (first : AlikeBut key store middle)
    (second : AlikeBut key middle after) : AlikeBut key store after :=
  ⟨second.size.trans first.size, fun name family different =>
    (second.get? name family different).trans (first.get? name family different)⟩

theorem modify (change : Variable → Variable)
    (found : store.position? name family = some position)
    (placed : store.records[position]? = some record)
    (kept : (change record.contents).family = family) (used : Nat) :
    AlikeBut (name, family) store { store with
      used
      records := store.records.modify position fun record =>
        { record with contents := change record.contents } } :=
  ⟨rfl, fun other kind different =>
    (get?_modify change found placed kept used other kind).trans (if_neg different)⟩

theorem append (name : Name) (contents : Variable) (store : Variables) :
    AlikeBut (name, contents.family) store (Variables.append name contents store).2 := by
  rw [append_apply]
  split
  · exact refl _ store
  · exact ⟨rfl, fun other kind different => get?_append_of_ne _ different⟩

theorem replace (contents : Variable)
    (found : store.position? name contents.family = some position) :
    AlikeBut (name, contents.family) store (Variables.replace position contents store).2 := by
  obtain ⟨record, placed, _⟩ := position?_eq_some found
  rcases replace_apply placed contents with run | ⟨used, run⟩
  · rw [run]
    exact refl _ store
  · rw [run]
    exact modify (fun _ => contents) found placed rfl used

theorem remove (found : store.position? name family = some position) :
    AlikeBut (name, family) store (Variables.remove position store).2 := by
  obtain ⟨record, placed, isFor⟩ := position?_eq_some found
  simp only [Variables.remove, Attempt.modify_apply, placed]
  refine ⟨rfl, fun other kind different => ?_⟩
  have apart : record.isFor other kind = false := Bool.eq_false_iff.mpr fun same =>
    different ((Record.isFor_iff.mp same).symm.trans (Record.isFor_iff.mp isFor))
  simp only [Variables.get?, find?_eraseIdx_of_neg (·.isFor other kind) placed apart]

end AlikeBut

/-- A step changes no variable but the one of a key. -/
def ChangesOnly {α : Type} (key : Key) (step : Attempt Variables α) : Prop :=
  ∀ store, AlikeBut key store (step store).2

theorem changesOnly_assignNumber (name : Name) (value : Int) :
    ChangesOnly (name, .numeric) (assignNumber name value) := by
  intro store
  simp only [assignNumber, Attempt.bind_apply, Attempt.get_apply]
  cases found : store.position? name .numeric with
  | none => exact .append name (.number value) store
  | some position =>
      obtain ⟨record, placed, _⟩ := position?_eq_some found
      exact .modify (.assigned value) found placed (record.contents.family_assigned value) _

theorem changesOnly_assignText (name : Name) (codes : List Code) :
    ChangesOnly (name, .text) (assignText name codes) := by
  intro store
  simp only [assignText, Attempt.bind_apply, Attempt.get_apply]
  cases found : store.position? name .text with
  | none => exact .append name (.text codes) store
  | some position => exact .replace (.text codes) found

theorem changesOnly_assignElement (name : Name) (index value : Int) :
    ChangesOnly (name, .array) (assignElement name index value) := by
  intro store
  rw [assignElement_apply]
  split
  next position values found _ =>
    obtain ⟨record, placed, _⟩ := position?_eq_some found
    cases elementAt values index with
    | error fault => exact .refl _ store
    | ok place => exact .modify (fun _ => .array (values.set place value)) found placed rfl _
  next => exact .refl _ store

theorem changesOnly_declareArray (name : Name) (maxIndex : Int) :
    ChangesOnly (name, .array) (declareArray name maxIndex) := by
  intro store
  rw [declareArray_eq]
  split
  · exact .refl _ store
  · split
    · exact .refl _ store
    · simp only [placeArray, Attempt.bind_apply, Attempt.get_apply]
      cases found : store.position? name .array with
      | none => exact .append name (.array _) store
      | some position => exact (AlikeBut.remove found).trans (.append name (.array _) _)

theorem changesOnly_startLoop (name : Name) (limit : Int) (resume : Nat) :
    ChangesOnly (name, .numeric) (startLoop name limit resume) := by
  intro store
  rw [startLoop_apply]
  split
  next position value found _ => exact .replace (.loop value limit resume) found
  next => exact .refl _ store

theorem changesOnly_stepLoop (name : Name) : ChangesOnly (name, .numeric) (stepLoop name) := by
  intro store
  rw [stepLoop_apply]
  split
  next position value limit resume found _ =>
    obtain ⟨record, placed, _⟩ := position?_eq_some found
    cases store.size.checked (value + 1) with
    | error fault => exact .refl _ store
    | ok next => exact .modify (fun _ => .loop next limit resume) found placed rfl _
  next => exact .refl _ store

/-- A change of a store is one of its key alone. -/
theorem changesOnly_perform (change : Change) : ChangesOnly change.key change.perform := by
  have unanswered {key : Key} {step : Attempt Variables Unit} (changes : ChangesOnly key step) :
      ChangesOnly key (step >>= fun _ => pure (none : Option Nat)) := fun store => by
    rw [Represents.bind_none_apply]
    exact changes store
  cases change with
  | assignNumber name value => exact unanswered (changesOnly_assignNumber name value)
  | assignText name codes => exact unanswered (changesOnly_assignText name codes)
  | assignElement name index value => exact unanswered (changesOnly_assignElement name index value)
  | declareArray name maxIndex => exact unanswered (changesOnly_declareArray name maxIndex)
  | startLoop name limit resume => exact unanswered (changesOnly_startLoop name limit resume)
  | stepLoop name => exact changesOnly_stepLoop name

/-! ## Loops -/

/-- A number that is assigned to keeps its loop, if it has one. -/
theorem get?_assignNumber {value : Int} (run : assignNumber name value store = (.ok (), after)) :
    after.get? name .numeric =
      some ((store.get? name .numeric).elim (.number value) (.assigned value)) := by
  simp only [assignNumber, Attempt.bind_apply, Attempt.get_apply] at run
  rw [get?_eq store]
  cases found : store.position? name .numeric with
  | none =>
      rw [found] at run
      dsimp only at run
      rw [append_apply] at run
      split at run
      · cases run
      · cases run
        exact get?_append_self _ found
  | some position =>
      obtain ⟨record, placed, _⟩ := position?_eq_some found
      rw [found] at run
      cases run
      rw [Option.bind_some, placed]
      exact (get?_modify (.assigned value) found placed (record.contents.family_assigned value) _ _
        _).trans (if_pos rfl)

/-- Starting a loop makes a number one of a loop. -/
theorem get?_startLoop {limit : Int} {resume : Nat}
    (run : startLoop name limit resume store = (.ok (), after)) :
    ∃ value, store.number name = .ok value ∧
      after.get? name .numeric = some (.loop value limit resume) := by
  rw [startLoop_apply] at run
  split at run
  next position value found counted =>
    obtain ⟨record, placed, _⟩ := position?_eq_some found
    rcases replace_apply placed (.loop value limit resume) with refused | ⟨used, replaced⟩
    · rw [refused] at run
      cases run
    · rw [replaced] at run
      cases run
      exact ⟨value, counted, (get?_modify (fun _ => .loop value limit resume) found placed rfl _ _
        _).trans (if_pos rfl)⟩
  next => cases run

/-- Starting a loop sets where it resumes, and keeps the others. -/
theorem startLoop_ok {limit : Int} {resume : Nat}
    (run : startLoop name limit resume store = (.ok (), after)) (other : Name) :
    after.resume? other = if other = name then some resume else store.resume? other := by
  have alike := changesOnly_startLoop name limit resume store
  rw [run] at alike
  split
  next same =>
    obtain ⟨value, -, started⟩ := get?_startLoop run
    rw [same, resume?_eq_some_iff]
    exact ⟨value, limit, started⟩
  next different =>
    rw [resume?, resume?, alike.get? other .numeric fun same => different (Prod.mk.inj same).1]

/-- A loop that is not started changes nothing. -/
theorem startLoop_error {limit : Int} {resume : Nat} {fault : Fault}
    (run : startLoop name limit resume store = (.error fault, after)) : after = store := by
  have unchanged := atomic_startLoop name limit resume store fault (congrArg Prod.fst run)
  rwa [run] at unchanged

section
variable {value limit : Int} {resume : Nat}
  (held : store.get? name .numeric = some (.loop value limit resume))
include held

/-- A loop that is counted up holds the next number, if a word holds it. -/
theorem exists_stepLoop :
    (∃ next after, store.size.checked (value + 1) = .ok next ∧
        stepLoop name store = (.ok (if next ≤ limit then some resume else none), after) ∧
        after.get? name .numeric = some (.loop next limit resume)) ∨
      ∃ fault, store.size.checked (value + 1) = .error fault ∧
        stepLoop name store = (.error fault, store) := by
  rw [stepLoop_apply]
  cases found : store.position? name .numeric with
  | none =>
      rw [get?_eq, found] at held
      cases held
  | some position =>
      obtain ⟨record, placed, _⟩ := position?_eq_some found
      rw [held]
      dsimp only
      cases store.size.checked (value + 1) with
      | error fault => exact .inr ⟨fault, rfl, rfl⟩
      | ok next =>
          exact .inl ⟨next, _, rfl, rfl, (get?_modify (fun _ => .loop next limit resume) found
            placed rfl _ _ _).trans (if_pos rfl)⟩

/-- A loop that is counted up goes on where it resumes, as long as it does not pass its limit. -/
theorem stepLoop_fst :
    (stepLoop name store).1 = (store.size.checked (value + 1)).map fun next =>
      if next ≤ limit then some resume else none := by
  rcases exists_stepLoop held with ⟨next, after, fits, run, -⟩ | ⟨fault, large, run⟩
  · rw [fits, run]
    rfl
  · rw [large, run]
    rfl

end

/-- What is no loop cannot be counted up. -/
theorem stepLoop_of_resume? (none : store.resume? name = none) :
    stepLoop name store = (.error .nextWithoutFor, store) := by
  rw [stepLoop_apply]
  split
  next position value limit resume found held =>
    have resumes := resume?_eq_some_iff.mpr ⟨value, limit, held⟩
    rw [none] at resumes
    cases resumes
  next => rfl

/-! ## Steps that keep every loop -/

/-- A step leaves every loop to resume where it did before. -/
abbrev KeepsLoops {α : Type} (step : Attempt Variables α) : Prop :=
  ∀ loops, Sustains (fun store : Variables => store.resume? = loops) step fun _ => True

theorem KeepsLoops.resume?_eq {α : Type} {step : Attempt Variables α} (keeps : KeepsLoops step)
    (store : Variables) : (step store).2.resume? = store.resume? :=
  (keeps store.resume?).kept rfl

/-- A step that leaves the loop of its own name where it was keeps every loop. -/
theorem ChangesOnly.keepsLoops {α : Type} {key : Key} {step : Attempt Variables α}
    (changes : ChangesOnly key step)
    (own : ∀ store, (key.1, .numeric) = key → (step store).2.resume? key.1 = store.resume? key.1) :
    KeepsLoops step := by
  refine fun _ => Attempt.sustains_of_kept fun store kept => Eq.trans (funext fun other => ?_) kept
  by_cases same : (other, .numeric) = key
  · have named : other = key.1 := congrArg Prod.fst same
    subst named
    exact own store same
  · rw [resume?, resume?, (changes store).get? other .numeric same]

theorem keepsLoops_assignNumber (name : Name) (value : Int) :
    KeepsLoops (assignNumber name value) := by
  refine (changesOnly_assignNumber name value).keepsLoops fun store _ => ?_
  cases run : assignNumber name value store with
  | mk result after =>
      cases result with
      | error fault =>
          have unchanged := atomic_assignNumber name value store fault (congrArg Prod.fst run)
          rw [run] at unchanged
          exact congrArg (resume? · name) unchanged
      | ok =>
          rw [resume?, get?_assignNumber run, resume?]
          rcases store.get? name .numeric with _ | ⟨_ | _⟩ <;> rfl

theorem keepsLoops_assignText (name : Name) (codes : List Code) :
    KeepsLoops (assignText name codes) :=
  (changesOnly_assignText name codes).keepsLoops fun _ => nofun

theorem keepsLoops_assignElement (name : Name) (index value : Int) :
    KeepsLoops (assignElement name index value) :=
  (changesOnly_assignElement name index value).keepsLoops fun _ => nofun

theorem keepsLoops_declareArray (name : Name) (maxIndex : Int) :
    KeepsLoops (declareArray name maxIndex) :=
  (changesOnly_declareArray name maxIndex).keepsLoops fun _ => nofun

theorem keepsLoops_stepLoop (name : Name) : KeepsLoops (stepLoop name) := by
  refine (changesOnly_stepLoop name).keepsLoops fun store _ => ?_
  cases resumes : store.resume? name with
  | none => rw [stepLoop_of_resume? resumes, resumes]
  | some resume =>
      obtain ⟨value, limit, held⟩ := resume?_eq_some_iff.mp resumes
      rcases exists_stepLoop held with ⟨next, after, -, run, counted⟩ | ⟨fault, -, run⟩
      · rw [run, resume?_eq_some_iff]
        exact ⟨next, limit, counted⟩
      · rw [run, resumes]

end Variables
end HomeBasic
