import HomeBasic.Proofs.Line.Glyphs
import HomeBasic.Proofs.Machine.Shown

/-!
# Where a statement word is announced

A statement word has to come next on an empty line, behind a line number, and behind the `THEN`
of every `IF` that leads on from there. With the cursor at the end of what was typed, the
machine announces the word with the glyph of a keyword in the first two cases. Behind a `THEN`
it does not: the step that takes up the `THEN` looks at the end of the line before a statement
is begun there, and decides for the glyph of a letter.

Main statement: `announces_word_iff`.
-/

namespace HomeBasic
namespace Grammar

variable {config : Config} {line statement : List Code}

/-- One `IF` behind the other, each with its condition and its `THEN`, or none. -/
inductive Branches (config : Config) : List Code → Prop
  | nil : Branches config []
  | cons {condition rest : List Code} :
      Phrase config false condition → Branches config rest →
      Branches config (StatementWord.if.code :: (condition ++ Keyword.then.code :: rest))

/-- What has to come next on a line is the word of a statement. -/
def AwaitsWord (config : Config) (line : List Code) : Prop :=
  ∃ digits branches number,
    line = digits ++ branches ∧ Numbers digits number ∧ Branches config branches

theorem Branches.sentence (branches : Branches config line)
    (sentence : Sentence config statement) : Sentence config (line ++ statement) := by
  induction branches with
  | nil => exact sentence
  | cons condition _ inductionHypothesis =>
      rw [List.cons_append, List.append_assoc, List.cons_append]
      exact .branch condition inductionHypothesis

/-- With a statement put behind it, a line that awaits a word is one of the language. -/
theorem AwaitsWord.sentence (awaits : AwaitsWord config line)
    (sentence : Sentence config statement) :
    ∃ digits body number, line ++ statement = digits ++ body ∧ Numbers digits number ∧
      Sentence config body := by
  obtain ⟨digits, branches, number, rfl, numbers, leads⟩ := awaits
  exact ⟨digits, branches ++ statement, number, List.append_assoc .., numbers,
    leads.sentence sentence⟩

theorem Branches.getLast? (branches : Branches config line) :
    line = [] ∨ line.getLast? = some Keyword.then.code := by
  induction branches with
  | nil => exact .inl rfl
  | @cons condition rest _ _ inductionHypothesis =>
      refine .inr ?_
      rw [List.getLast?_cons, List.getLast?_append, List.getLast?_cons]
      rcases inductionHypothesis with rfl | last
      · rfl
      · rw [last]
        rfl

/-- A line number or nothing is all that awaits a word without a `THEN` at its end. -/
theorem exists_numbers_iff_awaitsWord :
    (∃ number, Numbers line number) ↔
      AwaitsWord config line ∧ line.getLast? ≠ some Keyword.then.code := by
  constructor
  · rintro ⟨number, numbers⟩
    refine ⟨⟨line, [], number, (List.append_nil _).symm, numbers, .nil⟩, fun last => ?_⟩
    exact absurd (numbers.every_isDigit _ (List.mem_of_getLast? last)) (by decide)
  · rintro ⟨⟨digits, branches, number, rfl, numbers, leads⟩, ends⟩
    rcases leads.getLast? with rfl | last
    · exact ⟨number, by rwa [List.append_nil]⟩
    · rw [List.getLast?_append, last] at ends
      exact absurd rfl ends

/-- With the cursor at the end of a text, its check announces a word only where none of its
`THEN`s stands in front. -/
theorem shownGlyph_refresh_iff (edit : EditLine) (shown : ∀ code ∈ edit.text, code < 0x40)
    (atEnd : edit.cursor = edit.text.length) :
    (edit.refresh.check config).shownGlyph = .keyword ↔
      AwaitsWord config (crunch edit.text).bytes.dropLast ∧
        (crunch edit.text).bytes.dropLast.getLast? ≠ some Keyword.then.code := by
  have oneLine : Code.newline ∉ edit.text := fun member => absurd (shown _ member) (by decide)
  obtain ⟨digits, text, every, opens, part, bytes⟩ := Crunch.exists_crunch_eq edit.text
  have compact := compact_of_suited.1 <|
    Crunch.suited_codes (fun code member => shown _ (part _ member)) 0 false (.statement true)
  have front : (crunch edit.text).bytes.dropLast =
      digits ++ Crunch.codes text 0 false (.statement true) := by
    rw [bytes, List.dropLast_concat]
  have cursor : edit.refresh.cursorByte =
      (digits ++ Crunch.codes text 0 false (.statement true)).length := by
    rw [← byteAtColumn_length bytes, ← atEnd]
    rfl
  rw [front, ← exists_numbers_iff_awaitsWord]
  exact EditLine.shownGlyph_check_iff bytes cursor (front ▸ oneLine_crunch oneLine) every
    (Crunch.isDigit_head_codes opens false true) compact.solid

end Grammar

namespace Machine

open Grammar (AwaitsWord)

variable {H : Type} [Console H] {typable : Key → Prop} {config : Config} {machine : Machine H}

/--
After a key that leaves the cursor at the end of a text of display codes, the glyph shown
announces a word exactly if the text awaits one and does not end in a `THEN`.
-/
theorem announces_word_iff (reached : Reached typable config machine)
    (editing : machine.phase = .editing) {steps : Nat} {key : Key} (may : typable key)
    (settled : (machine.type steps key).2.phase = .editing)
    (shown : ∀ code ∈ (machine.type steps key).2.edit.text, code < 0x40)
    (atEnd : (machine.type steps key).2.edit.cursor =
      (machine.type steps key).2.edit.text.length) :
    let typed := (machine.type steps key).2
    let line := (crunch typed.edit.text).bytes.dropLast
    ∃ glyph console, typed.console = Console.showEditLine (typed.edit.render glyph) console ∧
      (glyph = .keyword ↔
        AwaitsWord typed.config line ∧ line.getLast? ≠ some Keyword.then.code) := by
  intro typed line
  have quiescent := ends_type editing reached.idle steps key settled
  obtain ⟨console, same⟩ := (faithful_type reached editing may settled).shown
  rw [← EditLine.render_eq_display (reached.type editing may steps).placed quiescent.edit] at same
  refine ⟨_, console, same, ?_⟩
  have glyph := @Grammar.shownGlyph_refresh_iff typed.config typed.edit shown atEnd
  rwa [quiescent.edit.refresh] at glyph

/-- Behind the `THEN` of a branch a word has to come next, and none is announced. -/
theorem announces_word_iff_behindThen :
    let machine := start {} (Recorder.start {} [] (MemorySlots.empty 2))
    let before := (machine.typeAll 1 ((Code.encode "10 IF A THE").map Key.code)).2
    let typed := (before.type 1 (.code 0x2E)).2
    typed.edit.text = Code.encode "10 IF A THEN" ∧
      AwaitsWord {} (crunch typed.edit.text).bytes.dropLast ∧
      Recorder.spell typed.console.editLine = "10 IF A THEN[S][L]" := by
  intro machine before typed
  have text : typed.edit.text = Code.encode "10 IF A THEN" := by decide +kernel
  have line : (crunch typed.edit.text).bytes.dropLast =
      Code.encode "10" ++ StatementWord.if.code :: (Code.encode "A" ++ [Keyword.then.code]) := by
    rw [text]
    decide +kernel
  have phrase : Grammar.Phrase {} false (Code.encode "A") :=
    ⟨.atom (.variable (Code.encode "A")),
      ⟨.atom ⟨by decide, by decide +kernel, by decide, by decide⟩, by decide, by decide⟩, rfl, rfl⟩
  have number : Grammar.Numbers (Code.encode "10") 10 :=
    .written (by decide) (by decide +kernel) (by decide) (by decide) (by decide)
  have awaits : AwaitsWord {} (crunch typed.edit.text).bytes.dropLast :=
    ⟨_, _, 10, line, number, .cons phrase .nil⟩
  have settles : machine.Settles 1 ((Code.encode "10 IF A THE").map Key.code) := by
    have phases : ∀ front ∈ ((Code.encode "10 IF A THE").map Key.code).inits,
        (machine.typeAll 1 front).2.phase = .editing := by
      decide +kernel
    exact fun front isFront => phases front ((List.mem_inits _ _).mpr isFront)
  have reached : Reached (fun _ => True) {} before :=
    (Reached.start _ _ _).typeAll (fun _ _ => trivial) settles
  obtain ⟨glyph, console, shown, announces⟩ :=
    @announces_word_iff _ _ _ _ before reached (by decide +kernel) 1 (.code 0x2E) trivial
      (show typed.phase = .editing by decide +kernel) (by rw [text]; decide +kernel)
      (by decide +kernel)
  have behindThen : glyph ≠ .keyword :=
    fun keyword => (announces.mp keyword).2 (by rw [line]; rfl)
  have letter : glyph = .letter := by
    cases glyph with
    | keyword => exact absurd rfl behindThen
    | letter => rfl
  have records (codes : List Code) (recorder : Recorder MemorySlots) :
      (Console.showEditLine codes recorder).editLine = codes := rfl
  have spelled : Recorder.spell (typed.edit.render .letter) = "10 IF A THEN[S][L]" := by
    decide +kernel
  exact ⟨text, awaits, by rw [shown, records, letter, spelled]⟩

end Machine
end HomeBasic
