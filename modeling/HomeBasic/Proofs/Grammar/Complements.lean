import HomeBasic.Proofs.Grammar.Places

/-!
# What goes with a word

The statements of the descriptor table take what their operand classes ask for off the line,
up to its end. Of an `IF` only the condition is taken, and a statement has to follow.

Main statements: one for each form that the table gives (`recognizes_nothing`,
`recognizes_numberWord`, `recognizes_let`, `recognizes_if`, …).
-/

namespace HomeBasic

/-- Another statement follows on the line. -/
def Outcome.leads : Outcome → Bool
  | another => true
  | done | act _ => false

namespace Grammar

open Statement (afterWord expression number numberPair numberTarget operand ownForm target
  variableName)

variable {H : Type} [Console H] {config : Config} {word : StatementWord}

/-! ## Words by their operands -/

section
variable (environment : Environment)

/-- The line has to end, and what has been read is what the word asks for. -/
def conclude (word : StatementWord) (operands : Operands) : Attempt (Desk H) Outcome := do
  Desk.expectEnd
  match operands.command? word with
  | some command => return .act command
  | none => throw .syntaxError

theorem afterWord_eq (noForm : .ownForm ∉ word.operandClasses) :
    (afterWord environment .check word : Attempt (Desk H) Outcome) = (do
      let operands ← word.operandClasses.foldlM (operand environment .check) Operands.none
      conclude word operands) := by
  have absent : word.operandClasses.contains .ownForm = false := by simpa using noForm
  simp only [afterWord, absent, Bool.false_eq_true, if_false]
  rfl

theorem afterWord_nothing (classes : word.operandClasses = [.nothing]) :
    (afterWord environment .check word : Attempt (Desk H) Outcome) = conclude word .none := by
  rw [afterWord_eq environment (by simp [classes]), classes]
  simp [operand]

theorem afterWord_number (classes : word.operandClasses = [.number]) :
    (afterWord environment .check word : Attempt (Desk H) Outcome) = (do
      let value ← number environment .check
      conclude word ⟨none, some (.number value)⟩) := by
  rw [afterWord_eq environment (by simp [classes]), classes]
  simp [operand, Operands.none]

theorem afterWord_optional (classes : word.operandClasses = [.optionalNumber]) :
    (afterWord environment .check word : Attempt (Desk H) Outcome) = (do
      if (← Desk.look) = Code.newline then
        conclude word .none
      else do
        let value ← number environment .check
        conclude word ⟨none, some (.number value)⟩) := by
  rw [afterWord_eq environment (by simp [classes]), classes]
  simp only [operand, Operands.none, List.foldlM_cons, List.foldlM_nil, bind_pure, bind_assoc]
  congr
  funext code
  split <;> simp

theorem afterWord_target (classes : word.operandClasses = [.target]) :
    (afterWord environment .check word : Attempt (Desk H) Outcome) = (do
      let target ← target environment .check
      conclude word ⟨some target, none⟩) := by
  rw [afterWord_eq environment (by simp [classes]), classes]
  simp [operand, Operands.none]

theorem afterWord_numberTarget (classes : word.operandClasses = [.numberTarget]) :
    (afterWord environment .check word : Attempt (Desk H) Outcome) = (do
      let name ← numberTarget
      conclude word ⟨some (.number name), none⟩) := by
  rw [afterWord_eq environment (by simp [classes]), classes]
  simp [operand, Operands.none]

theorem afterWord_let :
    (afterWord environment .check .let : Attempt (Desk H) Outcome) = (do
      let target ← target environment .check
      Desk.expect Code.equals
      let value ← expression environment .check
      if target.isText = value.isText then
        conclude .let ⟨some target, some value⟩
      else
        throw .syntaxError) := by
  have classes : StatementWord.let.operandClasses =
      [.target, .literal Code.equals, .matching] := rfl
  rw [afterWord_eq environment (by simp [classes]), classes]
  simp only [operand, Operands.none, List.foldlM_cons, List.foldlM_nil, bind_pure, bind_assoc,
    pure_bind]
  congr
  funext target
  congr
  funext _
  congr
  funext value
  by_cases same : target.isText = value.isText <;> simp [same]

theorem afterWord_if :
    (afterWord environment .check .if : Attempt (Desk H) Outcome) = (do
      let _ ← number environment .check
      Desk.expect Keyword.then.code
      if (← Desk.look) = Code.newline then
        throw .syntaxError
      else
        return .another) := by
  have classes : StatementWord.if.operandClasses =
      [.number, .literal Keyword.then.code, .ownForm] := rfl
  rw [afterWord, classes]
  simp only [operand, Operands.none, ownForm, List.foldlM_cons, List.foldlM_nil, bind_pure,
    bind_assoc, pure_bind]
  congr

theorem afterWord_ownForm (classes : word.operandClasses = [.ownForm]) :
    (afterWord environment .check word : Attempt (Desk H) Outcome) =
      ownForm environment .check .none word := by
  rw [afterWord, classes]
  simp [operand]

end

/-! ## Words of the descriptor table -/

/-- A statement ends with the line. -/
def Ended (line : List Code) (leads : Bool) (rest : List Code) : Prop :=
  leads = false ∧ line = [] ∧ rest = []

/-- What goes with a word goes up to the end of the line. -/
def Completes (config : Config) (word : StatementWord) (line : List Code) (leads : Bool)
    (rest : List Code) : Prop :=
  leads = false ∧ rest = [] ∧ Complement config word line

omit [Console H] in
theorem recognizes_conclude {operands : Operands} {command : Command}
    (asks : operands.command? word = some command) :
    Recognizes (idle config) Anything (conclude word operands : Attempt (Desk H) Outcome)
      Outcome.leads Ended := by
  rw [conclude, asks]
  refine (recognizes_expectEnd.andThen (fun _ => Recognizes.pure (.act command) Outcome.leads)
    fun _ _ _ _ _ => trivial).of_iff fun line leads rest => ?_
  simp [Ended, Outcome.leads]
  grind

theorem recognizes_nothing
    (listed : word ∈ [.new, .clear, .cont, .return, .stop, .cls]) :
    Recognizes (idle config) Anything
      (afterWord (.blank config) .check word : Attempt (Desk H) Outcome) Outcome.leads
      (Completes config word) := by
  have facts : word.operandClasses = [.nothing] ∧
      (∃ command, Operands.none.command? word = some command) ∧
      ∀ codes, Complement config word codes ↔ codes = [] := by
    simp only [List.mem_cons, List.not_mem_nil, or_false] at listed
    rcases listed with rfl | rfl | rfl | rfl | rfl | rfl <;>
      refine ⟨rfl, ⟨_, rfl⟩, fun codes => ⟨fun complement => ?_, ?_⟩⟩
    all_goals first
      | rintro rfl
        exact .nothing (by decide)
      | cases complement <;> simp_all
  obtain ⟨classes, ⟨command, asks⟩, complements⟩ := facts
  rw [afterWord_nothing (.blank config) classes]
  refine (recognizes_conclude asks).of_iff fun line leads rest => ?_
  rw [Ended, Completes, complements]
  grind

/-- A number up to the end of the line. -/
theorem recognizes_numberEnd {operands : Int → Operands}
    (asks : ∀ value, ∃ command, (operands value).command? word = some command) :
    Recognizes (idle config) Anything
      (do
        let value ← number (.blank config) .check
        conclude word (operands value) : Attempt (Desk H) Outcome) Outcome.leads
      fun line leads rest => leads = false ∧ rest = [] ∧ Phrase config false line := by
  refine ((recognizes_numeric config).andThen (fun value => recognizes_conclude
    (asks value).choose_spec) ?_).of_iff fun line leads rest => ?_
  · rintro _ _ _ ⟨-, rfl, -⟩ _
    exact ends_nil
  · simp [Ended, Opens]
    grind

theorem recognizes_numberWord (listed : word ∈ [.save, .load, .goto, .gosub, .wait]) :
    Recognizes (idle config) Anything
      (afterWord (.blank config) .check word : Attempt (Desk H) Outcome) Outcome.leads
      (Completes config word) := by
  have facts : word.operandClasses = [.number] ∧
      (∀ value, ∃ command,
        (Operands.mk none (some (.number value))).command? word = some command) ∧
      ∀ codes, Complement config word codes ↔ Phrase config false codes := by
    simp only [List.mem_cons, List.not_mem_nil, or_false] at listed
    rcases listed with rfl | rfl | rfl | rfl | rfl <;>
      refine ⟨rfl, fun value => ⟨_, rfl⟩, fun codes => ⟨fun complement => ?_, fun phrase => ?_⟩⟩
    all_goals first
      | exact .number (by decide) phrase
      | cases complement <;> simp_all
  obtain ⟨classes, asks, complements⟩ := facts
  rw [afterWord_number (.blank config) classes]
  refine (recognizes_numberEnd asks).of_iff fun line leads rest => ?_
  rw [Completes, complements]

theorem recognizes_optionalWord (listed : word ∈ [.list, .run, .restore]) :
    Recognizes (idle config) Anything
      (afterWord (.blank config) .check word : Attempt (Desk H) Outcome) Outcome.leads
      (Completes config word) := by
  have facts : word.operandClasses = [.optionalNumber] ∧
      (∃ command, Operands.none.command? word = some command) ∧
      (∀ value, ∃ command,
        (Operands.mk none (some (.number value))).command? word = some command) ∧
      ∀ codes, Complement config word codes ↔ codes = [] ∨ Phrase config false codes := by
    simp only [List.mem_cons, List.not_mem_nil, or_false] at listed
    rcases listed with rfl | rfl | rfl <;>
      refine ⟨rfl, ⟨_, rfl⟩, fun value => ⟨_, rfl⟩, fun codes => ⟨fun complement => ?_, ?_⟩⟩
    all_goals first
      | rintro (rfl | phrase)
        · exact .nothing (by decide)
        · exact .number (by decide) phrase
      | cases complement <;> simp_all
  obtain ⟨classes, ⟨command, asks⟩, asksFor, complements⟩ := facts
  rw [afterWord_optional (.blank config) classes]
  have rest : ∀ code, Recognizes (idle config) Anything
      (if code = Code.newline then conclude word .none
        else do
          let value ← number (.blank config) .check
          conclude word ⟨none, some (.number value)⟩ : Attempt (Desk H) Outcome) Outcome.leads
      fun line leads rest => leads = false ∧ rest = [] ∧
        if code = Code.newline then line = [] else Phrase config false line := by
    intro code
    split
    · refine (recognizes_conclude asks).of_iff fun line leads rest => ?_
      rw [Ended]
      grind
    · exact recognizes_numberEnd asksFor
  refine (recognizes_look.bind (fun code line leads rest => leads = false ∧ rest = [] ∧
    if code = Code.newline then line = [] else Phrase config false line) rest
    fun _ _ _ _ _ _ => trivial).of_iff fun line leads rest => ?_
  rw [Completes, complements]
  constructor
  · rintro ⟨_, _, ⟨rfl, rfl⟩, ended, left, what⟩
    refine ⟨ended, left, ?_⟩
    split at what
    · exact .inl what
    · exact .inr what
  · rintro ⟨ended, left, empty | phrase⟩
    · have ends : line.headD Code.newline = Code.newline := by rw [empty, List.headD_nil]
      exact ⟨_, _, ⟨rfl, rfl⟩, ended, left, (if_pos ends).mpr empty⟩
    · obtain ⟨code, others, opens, starts⟩ := phrase.exists_cons
      have more : line.headD Code.newline ≠ Code.newline := by
        rw [opens]
        exact fun same => starts (by rw [List.headD_cons] at same; simp [same])
      exact ⟨_, _, ⟨rfl, rfl⟩, ended, left, (if_neg more).mpr phrase⟩

theorem recognizes_placeWord (listed : word ∈ [.input, .read]) :
    Recognizes (idle config) Anything
      (afterWord (.blank config) .check word : Attempt (Desk H) Outcome) Outcome.leads
      (Completes config word) := by
  have facts : word.operandClasses = [.target] ∧
      (∀ target, ∃ command, (Operands.mk (some target) none).command? word = some command) ∧
      ∀ codes, Complement config word codes ↔ ∃ isText, Place config isText codes := by
    simp only [List.mem_cons, List.not_mem_nil, or_false] at listed
    rcases listed with rfl | rfl <;>
      refine ⟨rfl, fun target => ⟨_, rfl⟩, fun codes => ⟨fun complement => ?_, ?_⟩⟩
    all_goals first
      | rintro ⟨isText, place⟩
        exact .place (by decide) place
      | cases complement
        case place isText _ place => exact ⟨isText, place⟩
        all_goals simp_all
  obtain ⟨classes, asks, complements⟩ := facts
  rw [afterWord_target (.blank config) classes]
  refine (recognizes_target.andThen (fun target => recognizes_conclude
    (asks target).choose_spec) ?_).of_iff fun line leads rest => ?_
  · rintro _ _ _ ⟨-, rfl, -⟩ _
    exact ends_nil.toStops
  · rw [Completes, complements]
    simp [Ended, Opens]
    grind

theorem recognizes_next :
    Recognizes (idle config) Anything
      (afterWord (.blank config) .check .next : Attempt (Desk H) Outcome) Outcome.leads
      (Completes config .next) := by
  rw [afterWord_numberTarget (.blank config) rfl]
  refine (recognizes_numberTarget.andThen (fun name => recognizes_conclude rfl)
    fun _ _ _ _ _ => trivial).of_iff fun line leads rest => ?_
  have complements : ∀ codes, Complement config .next codes ↔ IsName codes := by
    refine fun codes => ⟨fun complement => ?_, .next⟩
    cases complement <;> simp_all
  rw [Completes, complements]
  constructor
  · rintro ⟨_, _, ⟨_, name, named, rfl⟩, ended, rfl, left⟩
    exact ⟨ended, left, by rwa [List.append_nil]⟩
  · rintro ⟨ended, left, named⟩
    exact ⟨(), [], ⟨ends_nil.toStops, line, named, by rw [List.append_nil]⟩, ended, rfl, left⟩

/-- The condition of an `IF` is taken off the line, and more has to follow. -/
theorem recognizes_if :
    Recognizes (idle config) Anything
      (afterWord (.blank config) .check .if : Attempt (Desk H) Outcome) Outcome.leads
      fun line leads rest => leads = true ∧ rest.headD Code.newline ≠ Code.newline ∧ ∃ condition,
        Phrase config false condition ∧ line = condition ++ Keyword.then.code :: rest := by
  rw [afterWord_if (.blank config)]
  have goesOn : Recognizes (idle config) Anything
      (do
        if (← Desk.look) = Code.newline then
          throw .syntaxError
        else
          return .another : Attempt (Desk H) Outcome) Outcome.leads
      fun line leads rest => leads = true ∧ line.headD Code.newline ≠ Code.newline ∧
        rest = line := by
    refine (recognizes_look.bind (fun code line leads rest => leads = true ∧
      code ≠ Code.newline ∧ rest = line) (fun code => ?_) fun _ _ _ _ _ _ => trivial).of_iff
        fun line leads rest => ?_
    · by_cases ends : code = Code.newline
      · rw [if_pos ends]
        exact (Recognizes.throw _ _).of_iff fun _ _ _ => by simp [ends]
      · rw [if_neg ends]
        exact (Recognizes.pure _ _).of_iff fun _ _ _ => by simp [ends, Outcome.leads]
    · simp
  refine ((recognizes_numeric config).andThen (fun _ => goesOn.afterCode _ (by decide)
    (by decide)) ?_).of_iff fun line leads rest => ?_
  · rintro _ _ _ ⟨middle, rfl, -⟩ _
    exact ends_of_head (by simp)
  · simp [Opens]
    grind

theorem recognizes_let :
    Recognizes (idle config) Anything
      (afterWord (.blank config) .check .let : Attempt (Desk H) Outcome) Outcome.leads
      (Completes config .let) := by
  rw [afterWord_let (.blank config)]
  have matching : ∀ target : Target, Recognizes (idle config) Anything
      (do
        let value ← expression (.blank config) .check
        if target.isText = value.isText then
          conclude .let ⟨some target, some value⟩
        else
          throw .syntaxError : Attempt (Desk H) Outcome) Outcome.leads
      fun line leads rest => leads = false ∧ rest = [] ∧ Phrase config target.isText line := by
    intro target
    have check : ∀ value : Value, Recognizes (idle config) Anything
        (if target.isText = value.isText then conclude .let ⟨some target, some value⟩
          else throw .syntaxError : Attempt (Desk H) Outcome) Outcome.leads
        fun line leads rest => target.isText = value.isText ∧ Ended line leads rest := by
      intro value
      by_cases same : target.isText = value.isText
      · rw [if_pos same]
        exact (recognizes_conclude rfl).of_iff fun _ _ _ => by simp [same]
      · rw [if_neg same]
        exact (Recognizes.throw _ _).of_iff fun _ _ _ => by simp [same]
    refine ((recognizes_phrase config).bind (fun isText line leads rest =>
      target.isText = isText ∧ Ended line leads rest) check ?_).of_iff fun line leads rest => ?_
    · rintro _ _ _ _ ⟨-, -, rfl, -⟩ _
      exact ends_nil
    · simp [Ended, Opens]
      grind
  have equals := fun target => (matching target).afterCode Code.equals (by decide) (by decide)
  refine (recognizes_target.bind (fun isText line leads rest => ∃ middle,
    line = Code.equals :: middle ∧ leads = false ∧ rest = [] ∧ Phrase config isText middle)
    equals ?_).of_iff fun line leads rest => ?_
  · rintro _ _ _ _ ⟨middle, rfl, -⟩ _
    exact stops_code .equal middle
  · have complements : Complement config .let line ↔ ∃ isText place value,
        Place config isText place ∧ Phrase config isText value ∧
          line = place ++ Code.equals :: value := by
      constructor
      · intro complement
        cases complement
        case assignment isText place value target phrase =>
          exact ⟨isText, place, value, target, phrase, rfl⟩
        all_goals simp_all
      · rintro ⟨isText, place, value, target, phrase, rfl⟩
        exact .assignment target phrase
    rw [Completes, complements]
    simp [Opens]
    grind

end Grammar
end HomeBasic
