import HomeBasic.Program

/-!
# Walking a store

A walk stops at the first line numbered high enough, or where no line is left, whatever
the bytes of the store are.

Main statements: the line that is found is found again by its own number
(`firstFrom_firstFrom`), and it is the first of the lines that are listed, and the line
before it the last of those passed (`lineAt?_find`, `bind_find_snd`).
-/

namespace HomeBasic
namespace Program

theorem headLength_pos {bytes : List Code} (numbered : headNumber bytes ≠ 0) :
    0 < headLength bytes := by
  unfold headLength
  split
  · exact Nat.succ_pos _
  · cases bytes with
    | nil => exact absurd rfl numbered
    | cons code rest => exact Nat.succ_pos _

/-- Where a walk stops, a walk to any number up to the one found there stops too. -/
theorem findFrom_stops {number steps : Nat} {bytes : List Code} (enough : bytes.length ≤ steps)
    (offset : Nat) (previous : Option Nat) :
    ∃ passed, (findFrom number steps bytes offset previous).1 = offset + passed ∧
      (headNumber (bytes.drop passed) = 0 ∨ number ≤ headNumber (bytes.drop passed)) ∧
      ∀ higher previous, number ≤ higher → higher ≤ headNumber (bytes.drop passed) →
        (findFrom higher steps bytes offset previous).1 = offset + passed := by
  induction steps generalizing bytes offset previous with
  | zero =>
      obtain rfl := List.eq_nil_of_length_eq_zero (Nat.le_zero.mp enough)
      exact ⟨0, rfl, .inl rfl, fun _ _ _ _ => rfl⟩
  | succ steps inductionHypothesis =>
      by_cases stops : headNumber bytes = 0 ∨ number ≤ headNumber bytes
      · refine ⟨0, by rw [findFrom, if_pos stops, Nat.add_zero], stops, ?_⟩
        intro higher previous _ reached
        rw [findFrom, if_pos (.inr reached), Nat.add_zero]
      · obtain ⟨numbered, low⟩ := not_or.mp stops
        have positive := headLength_pos numbered
        have fewer : (bytes.drop (headLength bytes)).length ≤ steps := by
          rw [List.length_drop]
          omega
        obtain ⟨passed, reached, stopped, again⟩ := inductionHypothesis fewer
          (offset + headLength bytes) (some offset)
        rw [List.drop_drop] at stopped again
        refine ⟨headLength bytes + passed, ?_, stopped, ?_⟩
        · rw [findFrom, if_neg stops]
          dsimp only
          rw [reached, Nat.add_assoc]
        · intro higher previous above inside
          have goesOn : ¬(headNumber bytes = 0 ∨ higher ≤ headNumber bytes) := by
            omega
          rw [findFrom, if_neg goesOn]
          dsimp only
          rw [again higher (some offset) above inside, Nat.add_assoc]

/-- The line that is found is numbered high enough. -/
theorem le_firstFrom {program : Program} {number : Nat} (found : program.firstFrom number ≠ 0) :
    number ≤ program.firstFrom number := by
  obtain ⟨passed, reached, stopped, _⟩ :=
    @findFrom_stops number program.bytes.length program.bytes (Nat.le_refl _) 0 none
  have place : program.firstFrom number = headNumber (program.bytes.drop passed) := by
    rw [firstFrom, find, reached, Nat.zero_add, numberAt]
  rw [place] at found ⊢
  exact stopped.resolve_left found

/-- The line that is found is found again by its own number. -/
theorem firstFrom_firstFrom (program : Program) {number : Nat}
    (found : program.firstFrom number ≠ 0) :
    program.firstFrom (program.firstFrom number) = program.firstFrom number := by
  obtain ⟨passed, reached, stopped, again⟩ :=
    @findFrom_stops number program.bytes.length program.bytes (Nat.le_refl _) 0 none
  have place : program.firstFrom number = headNumber (program.bytes.drop passed) := by
    rw [firstFrom, find, reached, Nat.zero_add, numberAt]
  rw [place] at found ⊢
  have repeated := again _ none (stopped.resolve_left found) (Nat.le_refl _)
  rw [firstFrom, find, repeated, Nat.zero_add, numberAt]

/-! ## Lines that are passed -/

/-- A walk passes over the lines that are listed, as far as they are numbered too low. -/
theorem findFrom_linesFrom {program : Program} {number steps offset : Nat} {bytes : List Code}
    (enough : bytes.length ≤ steps) (here : program.bytes.drop offset = bytes)
    (previous : Option Nat) :
    program.lineAt? (findFrom number steps bytes offset previous).1 =
        (linesFrom steps bytes).find? (number ≤ ·.number) ∧
      (findFrom number steps bytes offset previous).2.bind program.lineAt? =
        (((linesFrom steps bytes).takeWhile (·.number < number)).getLast?).or
          (previous.bind program.lineAt?) := by
  induction steps generalizing bytes offset previous with
  | zero =>
      obtain rfl := List.eq_nil_of_length_eq_zero (Nat.le_zero.mp enough)
      exact ⟨congrArg headLine? here, (Option.none_or).symm⟩
  | succ steps inductionHypothesis =>
      have first : program.lineAt? offset = headLine? bytes := congrArg headLine? here
      by_cases none : headNumber bytes = 0
      · have ended : headLine? bytes = .none := if_pos none
        rw [findFrom, if_pos (.inl none), linesFrom, ended]
        exact ⟨first.trans ended, (Option.none_or).symm⟩
      · obtain ⟨line, opens, named⟩ :
            ∃ line, headLine? bytes = some line ∧ line.number = headNumber bytes :=
          ⟨_, if_neg none, rfl⟩
        rw [linesFrom, opens]
        dsimp only
        by_cases high : number ≤ headNumber bytes
        · rw [findFrom, if_pos (.inr high), List.find?_cons_of_pos (by simpa [named] using high),
            List.takeWhile_cons_of_neg (by simpa [named] using high)]
          exact ⟨first.trans opens, (Option.none_or).symm⟩
        · have fewer : (bytes.drop (headLength bytes)).length ≤ steps := by
            have positive := headLength_pos none
            rw [List.length_drop]
            omega
          have behind : program.bytes.drop (offset + headLength bytes) =
              bytes.drop (headLength bytes) := by
            rw [← here, List.drop_drop]
          obtain ⟨found, before⟩ := inductionHypothesis fewer behind (some offset)
          rw [findFrom, if_neg (not_or.mpr ⟨none, high⟩),
            List.find?_cons_of_neg (by simpa [named] using high),
            List.takeWhile_cons_of_pos (by simpa [named] using high)]
          refine ⟨found, before.trans ?_⟩
          rw [Option.bind_some, first, opens, List.getLast?_cons]
          cases List.getLast? _ <;> rfl

/-- The line that is found is the first that is listed and numbered high enough. -/
theorem lineAt?_find (program : Program) (number : Nat) :
    program.lineAt? (program.find number).1 = program.lines.find? (number ≤ ·.number) :=
  (findFrom_linesFrom (Nat.le_refl _) List.drop_zero none).1

/-- The line before it is the last that is listed in front of it. -/
theorem bind_find_snd (program : Program) (number : Nat) :
    (program.find number).2.bind program.lineAt? =
      (program.lines.takeWhile (·.number < number)).getLast? :=
  (findFrom_linesFrom (Nat.le_refl _) List.drop_zero none).2.trans Option.or_none

end Program
end HomeBasic
