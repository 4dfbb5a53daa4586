import HomeBasic.Proofs.Attempt.Atomic
import HomeBasic.Proofs.Variables.Refinement

/-!
# Changes that fail

A change of the store looks for its variable and for room before it touches a record, so a
fault leaves the store as it was. The one exception is an array that is declared anew: the
old one is taken away before there is known to be room for the new one.

Main statement: `perform_error_iff` for all changes, with what is lost where one loses
anything.
-/

namespace HomeBasic

open Attempt (Atomic Looks)

namespace Variables

variable {store : Variables} {name : Name} {position : Nat} {record : Record}

/-! ## Changes that lose nothing -/

theorem atomic_resize (old new : Nat) : Atomic (resize old new) := by
  intro store fault failed
  unfold resize at failed ⊢
  dsimp only at failed ⊢
  split at failed
  next full => rw [if_pos full]
  next => cases failed

theorem total_overwrite (position : Nat) (change : Variable → Variable) :
    Attempt.Total (overwrite position change) :=
  Attempt.total_modify _

theorem atomic_append (name : Name) (contents : Variable) : Atomic (append name contents) :=
  Attempt.looks_get.bind fun _ => (atomic_resize _ _).bind fun _ => Attempt.total_modify _

theorem atomic_replace (position : Nat) (contents : Variable) :
    Atomic (replace position contents) := by
  refine Attempt.looks_get.bind fun store => ?_
  split
  · exact (Attempt.total_pure ()).atomic
  · exact (atomic_resize _ _).bind fun _ => total_overwrite _ _

theorem atomic_assignNumber (name : Name) (value : Int) : Atomic (assignNumber name value) := by
  refine Attempt.looks_get.bind fun store => ?_
  split
  · exact atomic_append _ _
  · exact (total_overwrite _ _).atomic

theorem atomic_assignText (name : Name) (codes : List Code) : Atomic (assignText name codes) := by
  refine Attempt.looks_get.bind fun store => ?_
  split
  · exact atomic_append _ _
  · exact atomic_replace _ _

theorem atomic_assignElement (name : Name) (index value : Int) :
    Atomic (assignElement name index value) := by
  refine Attempt.looks_get.bind fun store => ?_
  split
  · exact (Attempt.looks_ofExcept _).bind fun _ => (total_overwrite _ _).atomic
  · exact (Attempt.looks_throw _).atomic

theorem atomic_startLoop (name : Name) (limit : Int) (resume : Nat) :
    Atomic (startLoop name limit resume) := by
  refine Attempt.looks_get.bind fun store => ?_
  split
  · exact atomic_replace _ _
  · exact (Attempt.looks_throw _).atomic

theorem atomic_stepLoop (name : Name) : Atomic (stepLoop name) := by
  refine Attempt.looks_get.bind fun store => ?_
  split
  · refine (Attempt.looks_ofExcept _).bind fun next => Attempt.Total.atomic ?_
    exact (total_overwrite _ _).bind fun _ => Attempt.total_pure _
  · exact (Attempt.looks_throw _).atomic

/-! ## Arrays that are declared anew -/

theorem remove_apply (placed : store.records[position]? = some record) :
    remove position store =
      (.ok ⟨⟩, { store with
        records := store.records.eraseIdx position
        used := store.used - record.byteSize store.size }) := by
  rw [remove, Attempt.modify_apply, placed]

/-- A record that is taken away is missing. -/
theorem remove_ne (placed : store.records[position]? = some record) :
    (remove position store).2 ≠ store := by
  intro same
  obtain ⟨inside, _⟩ := List.getElem?_eq_some_iff.mp placed
  rw [remove_apply placed] at same
  have shorter : (store.records.eraseIdx position).length = store.records.length :=
    congrArg (·.records.length) same
  rw [List.length_eraseIdx_of_lt inside] at shorter
  omega

/-- A record is refused for want of room alone. -/
theorem append_error {contents : Variable} {fault : Fault}
    (failed : (append name contents store).1 = .error fault) : fault = .outOfMemory := by
  rw [append_apply] at failed
  split at failed <;> cases failed
  rfl

/-- An array without room is refused when the one of the same name is gone. -/
theorem placeArray_error {maxIndex : Int} {fault : Fault}
    (failed : (placeArray name maxIndex store).1 = .error fault) :
    fault = .outOfMemory ∧
      (placeArray name maxIndex store).2 =
        match store.position? name .array with
        | some position => (remove position store).2
        | none => store := by
  have placed : placeArray name maxIndex store =
      append name (.array (List.replicate (maxIndex.toNat + 1) 0))
        (match store.position? name .array with
          | some position => (remove position store).2
          | none => store) := by
    rw [placeArray, Attempt.bind_apply, Attempt.get_apply]
    dsimp only
    cases store.position? name .array <;> rfl
  rw [placed] at failed ⊢
  exact ⟨append_error failed, atomic_append _ _ _ _ failed⟩

/-- A declaration that fails leaves the store as it was, unless it ran out of memory and there
was an array of the name. -/
theorem declareArray_error_iff {maxIndex : Int} {fault : Fault}
    (failed : (declareArray name maxIndex store).1 = .error fault) :
    (declareArray name maxIndex store).2 = store ↔
      ¬(fault = .outOfMemory ∧ (store.position? name .array).isSome) := by
  rw [declareArray_eq] at failed ⊢
  split at failed
  next outside =>
    cases failed
    rw [if_pos outside]
    exact iff_of_true rfl nofun
  next inside =>
    rw [if_neg inside]
    split at failed
    next long =>
      cases failed
      rw [if_pos long]
      exact iff_of_true rfl nofun
    next short =>
      rw [if_neg short]
      obtain ⟨rfl, left⟩ := placeArray_error failed
      rw [left]
      cases found : store.position? name .array with
      | none => exact iff_of_true rfl nofun
      | some position =>
          obtain ⟨record, placed, _⟩ := position?_eq_some found
          exact iff_of_false (remove_ne placed) fun keeps => keeps ⟨rfl, rfl⟩

/-! ## All changes -/

namespace Change

/-- A change declares an array under a name that has one. -/
def Redeclares (store : Variables) : Change → Prop
  | declareArray name _ => (store.position? name .array).isSome
  | _ => False

theorem atomic_perform {change : Change}
    (other : ∀ name maxIndex, change ≠ declareArray name maxIndex) : Atomic change.perform := by
  cases change with
  | assignNumber name value =>
      exact (atomic_assignNumber name value).bind fun _ => Attempt.total_pure _
  | assignText name codes =>
      exact (atomic_assignText name codes).bind fun _ => Attempt.total_pure _
  | assignElement name index value =>
      exact (atomic_assignElement name index value).bind fun _ => Attempt.total_pure _
  | declareArray name maxIndex => exact absurd rfl (other name maxIndex)
  | startLoop name limit resume =>
      exact (atomic_startLoop name limit resume).bind fun _ => Attempt.total_pure _
  | stepLoop name => exact atomic_stepLoop name

end Change

/--
A change that fails leaves the store as it was, unless it is an array that is declared anew
and has no room.
-/
theorem perform_error_iff {change : Change} {fault : Fault} {changed : Variables}
    (failed : change.perform store = (.error fault, changed)) :
    changed = store ↔ ¬(fault = .outOfMemory ∧ change.Redeclares store) := by
  obtain ⟨result, left⟩ := Prod.mk.inj failed
  by_cases declares : ∃ name maxIndex, change = .declareArray name maxIndex
  · obtain ⟨name, maxIndex, rfl⟩ := declares
    rw [Change.perform, Represents.bind_none_apply] at failed
    obtain ⟨mapped, rfl⟩ := Prod.mk.inj failed
    refine declareArray_error_iff ?_
    cases ended : (declareArray name maxIndex store).1 with
    | error other =>
        rw [ended] at mapped
        cases mapped
        rfl
    | ok _ =>
        rw [ended] at mapped
        cases mapped
  · have other : ∀ name maxIndex, change ≠ .declareArray name maxIndex := fun name maxIndex same =>
      declares ⟨name, maxIndex, same⟩
    have kept : changed = store :=
      left.symm.trans (Change.atomic_perform other store fault (congrArg Prod.fst failed))
    refine iff_of_true kept ?_
    rintro ⟨-, redeclares⟩
    cases change with
    | declareArray name maxIndex => exact other name maxIndex rfl
    | _ => exact redeclares

/-- An array is lost if there is no room for it to be declared anew; a text stays if there is
none for a longer one. -/
theorem perform_error_iff_redeclared :
    let array : Variables := ⟨.short, [⟨[0x21], .array [0, 7]⟩], 20, 8⟩
    let declare := Change.declareArray [0x21] 9
    let text : Variables := ⟨.short, [⟨[0x21], .text [0x21]⟩], 10, 5⟩
    let assign := Change.assignText [0x21] [0x21, 0x21, 0x21, 0x21, 0x21, 0x21, 0x21]
    declare.perform array = (.error .outOfMemory, ⟨.short, [], 20, 1⟩) ∧
      (declare.perform array).2 ≠ array ∧
      assign.perform text = (.error .outOfMemory, text) ∧
      (assign.perform text).2 = text := by
  intro array declare text assign
  have lost : declare.perform array = (.error .outOfMemory, ⟨.short, [], 20, 1⟩) := rfl
  have kept : assign.perform text = (.error .outOfMemory, text) := rfl
  refine ⟨lost, ?_, kept, ?_⟩
  · rw [lost]
    exact fun same => (perform_error_iff lost).mp same ⟨rfl, rfl⟩
  · exact (perform_error_iff kept).mpr fun redeclares => redeclares.2

end Variables
end HomeBasic
