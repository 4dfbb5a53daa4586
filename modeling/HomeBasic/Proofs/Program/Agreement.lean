import HomeBasic.Proofs.Program.Refinement

/-!
# Stores that agree

A statement is stored with the byte behind it that ends a line. If no such byte is in the
statement, the lines of all other numbers stay. With one in it what is stored is no line: either
the store holds no lines any more, or another line has appeared.

Main statements: `Holds.agree_insert` and `Holds.oneLine_of_insert`.
-/

namespace HomeBasic
namespace Program

/-- Two stores hold the same lines but for those of a number. -/
def Agree (number : Nat) (first second : Program) : Prop :=
  ∀ line : Line, line.number ≠ number → (line ∈ first.lines ↔ line ∈ second.lines)

namespace Holds

variable {program changed : Program} {lines others : List Line} {number : Nat}
  {statement : List Code}

/-- What is stored on one line leaves the other lines alone. -/
theorem agree_insert (holds : program.Holds lines)
    (numbered : 0 < number ∧ number ≤ Line.maxNumber) (oneLine : Code.newline ∉ statement)
    (run : program.insert number statement = .ok changed) : Agree number changed program := by
  intro line other
  rw [(holds.insert numbered oneLine run).lines_eq, holds.lines_eq, mem_inserted]
  constructor
  · rintro (⟨member, -⟩ | ⟨-, rfl⟩)
    · exact member
    · exact absurd rfl other
  · exact fun member => .inl ⟨member, other⟩

/-- Lines that agree but for a number are the same below it and above it. -/
theorem filter_eq_of_agree (holds : program.Holds lines) (after : changed.Holds others)
    (agree : Agree number changed program) {keep : Line → Bool}
    (apart : ∀ line, keep line = true → line.number ≠ number) :
    others.filter keep = lines.filter keep := by
  refine (after.ordered.filter keep).eq_of_mem_iff (holds.ordered.filter keep) fun line => ?_
  rw [List.mem_filter, List.mem_filter]
  refine and_congr_left fun kept => ?_
  have same := agree line (apart line kept)
  rwa [after.lines_eq, holds.lines_eq] at same

/-- If lines are held that agree with those before, the statement was stored on one line. -/
theorem oneLine_of_insert (holds : program.Holds lines) (positive : 0 < number)
    (run : program.insert number statement = .ok changed) (after : changed.Holds others)
    (agree : Agree number changed program) : Code.newline ∉ statement := by
  cases statement with
  | nil => exact List.not_mem_nil
  | cons code rest =>
      have lower : below number others = below number lines :=
        holds.filter_eq_of_agree after agree fun line kept => by
          have := of_decide_eq_true kept
          omega
      have higher : above number others = above number lines :=
        holds.filter_eq_of_agree after agree fun line kept => by
          have := of_decide_eq_true kept
          omega
      have stored : changed.bytes = packLines (below number lines) ++
          packLine number (code :: rest) ++ (packLines (above number lines) ++ terminator) := by
        simp only [Program.insert, holds.take_find, holds.drop_line positive, List.isEmpty_cons,
          Bool.false_eq_true, if_false] at run
        split at run
        · cases run
        · cases run
          rfl
      have held := after.bytes_eq number
      rw [stored, lower, higher, List.append_assoc] at held
      have packed := List.append_cancel_right (List.append_cancel_left held)
      cases found : numberedBy number others with
      | nil =>
          rw [found] at packed
          cases List.append_eq_nil_iff.mp packed |>.2
      | cons line rest =>
          have member : line ∈ numberedBy number others := by
            rw [found]
            exact List.mem_cons_self
          obtain ⟨among, same⟩ := List.mem_filter.mp member
          obtain rfl := eq_of_beq same
          rw [after.ordered.numberedBy_of_mem among, packLines, List.flatMap_singleton] at packed
          rw [List.append_cancel_left (List.append_cancel_right packed)]
          exact after.ordered.oneLine line among

end Holds
end Program
end HomeBasic
