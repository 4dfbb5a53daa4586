import Mathlib.Data.Finmap
import HomeBasic.Proofs.Variables.Reading

/-!
# The contents of a variable store

What a variable store means is a finite map from a name and a family to a variable
(`Contents`), with the number of bytes that its packing takes (`packedSize`).

Main statements: looking up reads the map (`lookup_contents`), the records of a store
without double names take the bytes of the map (`packedSize_table`), and adding,
changing and taking away a record does so in the map (`table_append`, `table_modify`,
`table_eraseIdx`).
-/

namespace HomeBasic

/-- What a number holds once a value is assigned to it; a loop keeps its limit and its place. -/
def Variable.assigned (value : Int) : Variable → Variable
  | .loop _ limit resume => .loop value limit resume
  | _ => .number value

namespace Variables

/-- A name and the family in which it is looked up. -/
abbrev Key := Name × Family

/-- The variables of a store. -/
abbrev Contents := Finmap fun _ : Key => Variable

namespace Record

/-- The name of a record and its family. -/
def key (record : Record) : Key :=
  (record.name, record.contents.family)

/-- A record as an entry of the map. -/
def entry (record : Record) : Sigma fun _ : Key => Variable :=
  ⟨record.key, record.contents⟩

theorem isFor_iff {record : Record} {name : Name} {family : Family} :
    record.isFor name family = true ↔ record.key = (name, family) := by
  simp [isFor, key, and_comm]

theorem key_ne {record : Record} {name : Name} {family : Family}
    (other : record.isFor name family = false) : record.key ≠ (name, family) :=
  fun same => Bool.eq_false_iff.mp other (isFor_iff.mpr same)

end Record

/-- The map of some records; the first of a name and a family counts. -/
def table (records : List Record) : Contents :=
  (records.map Record.entry).toFinmap

/-- What a store holds. -/
def contents (store : Variables) : Contents :=
  table store.records

/-- The bytes that the packing of a map takes, its end included. -/
def packedSize (size : WordSize) (contents : Contents) : Nat :=
  (contents.entries.map fun entry => (⟨entry.1.1, entry.2⟩ : Record).byteSize size).sum + 1

variable {records : List Record} {name : Name} {family : Family}

theorem table_cons (record : Record) (records : List Record) :
    table (record :: records) = (table records).insert record.key record.contents :=
  Finmap.toFinmap_cons _ _ _

theorem lookup_table (records : List Record) (name : Name) (family : Family) :
    (table records).lookup (name, family) =
      (records.find? (·.isFor name family)).map (·.contents) := by
  induction records with
  | nil => rfl
  | cons record records inductionHypothesis =>
      rw [table_cons, List.find?_cons]
      by_cases same : record.key = (name, family)
      · rw [same, Finmap.lookup_insert, Record.isFor_iff.mpr same]
        rfl
      · have other : record.isFor name family = false :=
          Bool.eq_false_iff.mpr (mt Record.isFor_iff.mp same)
        rw [Finmap.lookup_insert_of_ne _ (Ne.symm same), inductionHypothesis, other]

/-- Looking up in a store reads its map. -/
theorem lookup_contents (store : Variables) (name : Name) (family : Family) :
    store.contents.lookup (name, family) = store.get? name family :=
  lookup_table store.records name family

theorem mem_table {key : Key} : key ∈ table records ↔ key ∈ records.map Record.key := by
  rw [table, Finmap.mem_list_toFinmap, List.mem_map]
  constructor
  · rintro ⟨contents, member⟩
    obtain ⟨record, here, same⟩ := List.mem_map.mp member
    exact ⟨record, here, congrArg Sigma.fst same⟩
  · rintro ⟨record, here, rfl⟩
    exact ⟨record.contents, List.mem_map_of_mem here⟩

/-- Records without double names take the bytes of their map. -/
theorem packedSize_table (size : WordSize) (distinct : (records.map Record.key).Nodup) :
    packedSize size (table records) = bytesOf size records + 1 := by
  induction records with
  | nil => rfl
  | cons record records inductionHypothesis =>
      rw [List.map_cons, List.nodup_cons] at distinct
      have others := inductionHypothesis distinct.2
      have absent : record.key ∉ table records := mt mem_table.mp distinct.1
      simp only [packedSize, bytesOf] at others ⊢
      rw [table_cons, Finmap.entries_insert_of_notMem absent, Multiset.map_cons,
        Multiset.sum_cons, Nat.add_assoc, others, List.map_cons, List.sum_cons, Nat.add_assoc]
      rfl

/-! ## Changing records -/

theorem table_append (record : Record) (absent : record.key ∉ records.map Record.key) :
    table (records ++ [record]) = (table records).insert record.key record.contents := by
  induction records with
  | nil => rfl
  | cons first records inductionHypothesis =>
      rw [List.map_cons, List.mem_cons, not_or] at absent
      rw [List.cons_append, table_cons, inductionHypothesis absent.2, table_cons,
        Finmap.insert_insert_of_ne _ absent.1]

/-- The first record of a name takes other contents. -/
theorem table_modify {position : Nat} {old : Record} {change : Variable → Variable}
    (found : records.findIdx? (·.isFor name family) = some position)
    (placed : records[position]? = some old) (kept : (change old.contents).family = family) :
    table (records.modify position fun record =>
        { record with contents := change record.contents }) =
      (table records).insert (name, family) (change old.contents) := by
  induction records generalizing position with
  | nil => cases found
  | cons first records inductionHypothesis =>
      rw [List.findIdx?_cons] at found
      cases here : first.isFor name family with
      | true =>
          rw [here] at found
          cases found
          cases placed
          have same := Record.isFor_iff.mp here
          have changed : Record.key { old with contents := change old.contents } =
              (name, family) := by
            rw [← same]
            exact congrArg (Prod.mk old.name) (kept.trans (congrArg Prod.snd same).symm)
          rw [List.modify_zero_cons, table_cons, table_cons, changed, same, Finmap.insert_insert]
      | false =>
          rw [here] at found
          simp only [Bool.false_eq_true, if_false, Option.map_eq_some_iff] at found
          obtain ⟨position, found, rfl⟩ := found
          rw [List.modify_succ_cons, table_cons, inductionHypothesis found placed, table_cons,
            Finmap.insert_insert_of_ne _ (Record.key_ne here).symm]

section
variable {contents : Contents} {key other : Key} {held : Variable}

theorem erase_insert_self (absent : key ∉ contents) :
    (contents.insert key held).erase key = contents := by
  refine Finmap.ext_lookup fun place => ?_
  by_cases same : place = key
  · rw [same, Finmap.lookup_erase, Finmap.lookup_eq_none.mpr absent]
  · rw [Finmap.lookup_erase_ne same, Finmap.lookup_insert_of_ne _ same]

theorem insert_erase_self : (contents.erase key).insert key held = contents.insert key held := by
  refine Finmap.ext_lookup fun place => ?_
  by_cases same : place = key
  · rw [same, Finmap.lookup_insert, Finmap.lookup_insert]
  · rw [Finmap.lookup_insert_of_ne _ same, Finmap.lookup_erase_ne same,
      Finmap.lookup_insert_of_ne _ same]

theorem erase_of_lookup_eq_none (absent : contents.lookup key = none) :
    contents.erase key = contents := by
  refine Finmap.ext_lookup fun place => ?_
  by_cases same : place = key
  · rw [same, Finmap.lookup_erase, absent]
  · rw [Finmap.lookup_erase_ne same]

theorem erase_insert_of_ne (different : other ≠ key) :
    (contents.insert key held).erase other = (contents.erase other).insert key held := by
  refine Finmap.ext_lookup fun place => ?_
  by_cases same : place = key
  · subst same
    rw [Finmap.lookup_erase_ne different.symm, Finmap.lookup_insert, Finmap.lookup_insert]
  · rw [Finmap.lookup_insert_of_ne _ same]
    by_cases erased : place = other
    · rw [erased, Finmap.lookup_erase, Finmap.lookup_erase]
    · rw [Finmap.lookup_erase_ne erased, Finmap.lookup_erase_ne erased,
        Finmap.lookup_insert_of_ne _ same]

end

/-- The only record of a name is taken away. -/
theorem table_eraseIdx {position : Nat} (distinct : (records.map Record.key).Nodup)
    (found : records.findIdx? (·.isFor name family) = some position) :
    table (records.eraseIdx position) = (table records).erase (name, family) := by
  induction records generalizing position with
  | nil => cases found
  | cons first records inductionHypothesis =>
      rw [List.findIdx?_cons] at found
      rw [List.map_cons, List.nodup_cons] at distinct
      cases here : first.isFor name family with
      | true =>
          rw [here] at found
          cases found
          rw [List.eraseIdx_cons_zero, table_cons, ← Record.isFor_iff.mp here,
            erase_insert_self (mt mem_table.mp distinct.1)]
      | false =>
          rw [here] at found
          simp only [Bool.false_eq_true, if_false, Option.map_eq_some_iff] at found
          obtain ⟨position, found, rfl⟩ := found
          rw [List.eraseIdx_cons_succ, table_cons, inductionHypothesis distinct.2 found, table_cons,
            erase_insert_of_ne (Record.key_ne here).symm]

end Variables
end HomeBasic
