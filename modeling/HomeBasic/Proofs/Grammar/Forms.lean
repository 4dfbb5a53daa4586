import HomeBasic.Proofs.Grammar.Complements

/-!
# Words with a form of their own

`PRINT`, `FOR`, `DIM`, `DATA`, `POKE`, `BEEP` and `REM` are read each in its own way, all of
them up to the end of the line. The lists of a `PRINT` and a `DATA` are read in turns, and
every turn takes a code off the line, so there are always turns enough.

Main statement: what goes with a word, any but `IF`, is taken off the line
(`recognizes_afterWord`).
-/

namespace HomeBasic
namespace Grammar

open Statement (afterWord dataItems dimensionForm expression loopForm number numberPair
  numberTarget ownForm printItem printItems printing turnsLeft variableName)

variable {H : Type} [Console H] {config : Config} {word : StatementWord}
  {desk reached : Desk H} {calculator : BoundedStack Pending} {code : Code}
  {line rest : List Code} {turns : Nat}

/-! ## Forms with fixed parts -/

omit [Console H] in
/-- Where the line ends, something is made of what has been read. -/
theorem recognizes_ending {α β : Type} (value : α) (view : α → β) :
    Recognizes calculator Anything
      (do
        Desk.expectEnd
        return value : Attempt (Desk H) α) view
      fun line seen rest => seen = view value ∧ line = [] ∧ rest = [] :=
  (recognizes_expectEnd.andThen (fun _ => Recognizes.pure value view)
    fun _ _ _ _ _ => trivial).of_iff fun _ _ _ => by
      simp
      grind

omit [Console H] in
theorem recognizes_act (command : Command) :
    Recognizes calculator Anything (return .act command : Attempt (Desk H) Outcome)
      Outcome.leads fun line leads rest => leads = false ∧ rest = line :=
  Recognizes.pure (.act command) Outcome.leads

theorem recognizes_loopForm :
    Recognizes (idle config) Anything
      (loopForm (.blank config) .check : Attempt (Desk H) Command) (fun _ => ())
      fun line _ rest => rest = [] ∧ Complement config .for line := by
  have limit : ∀ (name : Name) (start : Int), Recognizes (idle config) Anything
      (do
        let limit ← number (.blank config) .check
        Desk.expectEnd
        return .loop name start limit : Attempt (Desk H) Command) (fun _ => ())
      fun line _ rest => rest = [] ∧ Phrase config false line := by
    intro name start
    refine ((recognizes_numeric config).andThen
      (fun limit => recognizes_ending (Command.loop name start limit) fun _ => ())
      ?_).of_iff fun line seen rest => ?_
    · rintro _ _ _ ⟨-, rfl, -⟩ _
      exact ends_nil
    · simp [Opens]
      grind
  have start : ∀ name : Name, Recognizes (idle config) Anything
      (do
        let start ← number (.blank config) .check
        Desk.expect Keyword.«to».code
        let limit ← number (.blank config) .check
        Desk.expectEnd
        return .loop name start limit : Attempt (Desk H) Command) (fun _ => ())
      fun line _ rest => rest = [] ∧ ∃ start limit, Phrase config false start ∧
        Phrase config false limit ∧ line = start ++ Keyword.«to».code :: limit := by
    intro name
    refine ((recognizes_numeric config).andThen
      (fun start => (limit name start).afterCode _ (by decide) (by decide)) ?_).of_iff
        fun line seen rest => ?_
    · rintro _ _ _ ⟨middle, rfl, -⟩ _
      exact ends_of_head (by simp)
    · simp [Opens]
      grind
  refine (recognizes_numberTarget.andThen
    (fun name => (start name).afterCode _ (by decide) (by decide)) ?_).of_iff
      fun line seen rest => ?_
  · rintro _ _ _ ⟨middle, rfl, -⟩ _
    trivial
  · have complements : Complement config .for line ↔ ∃ name start limit, IsName name ∧
        Phrase config false start ∧ Phrase config false limit ∧
          line = name ++ Code.equals :: (start ++ Keyword.«to».code :: limit) := by
      constructor
      · intro complement
        cases complement
        case loop name start limit named first last =>
          exact ⟨name, start, limit, named, first, last, rfl⟩
        all_goals simp_all
      · rintro ⟨name, start, limit, named, first, last, rfl⟩
        exact .loop named first last
    rw [complements]
    have stops : ∀ middle, Stops (Code.equals :: middle) := stops_code .equal
    simp
    grind

/-- An index in brackets that ends the line. -/
theorem recognizes_lastIndex {α : Type} (value : Int → α) :
    Recognizes (idle config) Anything
      (do
        let index ← Expression.subscript (expression (.blank config) .check)
        Desk.expectEnd
        return value index : Attempt (Desk H) α) (fun _ => ())
      fun line _ rest => rest = [] ∧ ∃ index, Phrase config false index ∧
        line = Code.leftParen :: (index ++ [Code.rightParen]) := by
  refine ((recognizes_index config).andThen
    (fun index => recognizes_ending (value index) fun _ => ()) fun _ _ _ _ _ => trivial).of_iff
      fun line seen rest => ?_
  simp
  grind

theorem recognizes_dimensionForm :
    Recognizes (idle config) Anything
      (dimensionForm (.blank config) .check : Attempt (Desk H) Command) (fun _ => ())
      fun line _ rest => rest = [] ∧ Complement config .dim line where
  sound := by
    intro desk reached command ready run
    obtain ⟨⟨name, use⟩, between, read, run⟩ := Attempt.exists_of_bind_eq_ok run
    obtain ⟨named, after, -, line, -, passed, left⟩ := exists_of_variableName ready read
    dsimp only at run
    by_cases array : use = .array
    · rw [if_neg (not_not.mpr array), Attempt.bind_apply, Desk.skip_apply] at run
      obtain ⟨ends, gone, index, phrase, opens⟩ :=
        (recognizes_lastIndex (Command.dimension name)).sound passed run
      refine ⟨ends, gone, ?_⟩
      rw [line, ← left, opens]
      exact .dimension named phrase
    · rw [if_pos array] at run
      cases run
  complete := by
    rintro desk _ rest ready ⟨rfl, complement⟩ _
    generalize opens : desk.scanner.line = line at complement
    cases complement
    case dimension name index named phrase =>
      obtain ⟨between, read, passed, left⟩ := variableName_of_name ready named opens rfl
      obtain ⟨command, reached, run, gone⟩ :=
        (recognizes_lastIndex (Command.dimension name)).ends passed ⟨rfl, index, phrase, left⟩
          trivial
      refine ⟨command, reached, ?_, rfl, gone⟩
      rw [dimensionForm, Attempt.bind_apply, read]
      have array : NameUse.ofAfter (Code.leftParen :: (index ++ [Code.rightParen])) = .array := rfl
      dsimp only
      rw [array, if_neg (not_not.mpr rfl), Attempt.bind_apply, Desk.skip_apply]
      exact run
    all_goals simp_all

/-- Two numbers that end the line. -/
theorem recognizes_lastPair {command : Int → Int → Command} :
    Recognizes (idle config) Anything
      (do
        let (first, second) ← numberPair (.blank config) .check
        Desk.expectEnd
        return .act (command first second) : Attempt (Desk H) Outcome) Outcome.leads
      fun line leads rest => leads = false ∧ rest = [] ∧ Pair config line := by
  have ending : ∀ pair : Int × Int, Recognizes (idle config) Anything
      (match pair with
        | (first, second) => do
          Desk.expectEnd
          return .act (command first second) : Attempt (Desk H) Outcome) Outcome.leads Ended :=
    fun (first, second) => recognizes_ending (Outcome.act (command first second)) Outcome.leads
  refine ((recognizes_numberPair config).andThen ending ?_).of_iff fun line seen rest => ?_
  · rintro _ _ _ ⟨-, rfl, -⟩ _
    exact ends_nil
  · simp [Opens, Ended]
    grind

theorem recognizes_pairWord (listed : word ∈ [.poke, .beep]) :
    Recognizes (idle config) Anything
      (afterWord (.blank config) .check word : Attempt (Desk H) Outcome) Outcome.leads
      (Completes config word) := by
  have facts : (∃ command : Int → Int → Command, ownForm (.blank config) .check .none word = (do
        let (first, second) ← numberPair (.blank config) .check
        Desk.expectEnd
        return .act (command first second) : Attempt (Desk H) Outcome)) ∧
      word.operandClasses = [.ownForm] ∧
      ∀ codes, Complement config word codes → Pair config codes := by
    simp only [List.mem_cons, List.not_mem_nil, or_false] at listed
    rcases listed with rfl | rfl <;> refine ⟨⟨_, rfl⟩, rfl, fun codes complement => ?_⟩
    all_goals
      cases complement
      case pair first second one other _ => exact ⟨first, second, one, other, rfl⟩
      all_goals simp_all
  obtain ⟨⟨command, reads⟩, classes, pairs⟩ := facts
  rw [afterWord_ownForm _ classes, reads]
  refine recognizes_lastPair.of_iff fun line leads rest => ?_
  rw [Completes]
  refine and_congr_right fun _ => and_congr_right fun _ => ⟨?_, pairs line⟩
  rintro ⟨first, second, one, other, rfl⟩
  exact .pair listed one other

/-! ## The items of a `PRINT` -/

/-- What follows an item of a `PRINT`: a separator, or nothing. -/
def Parted (rest : List Code) : Prop :=
  rest.headD Code.newline ∈ [Code.newline, Code.semicolon, Code.comma]

/-- A look at what follows an item. -/
def itemEnd : Attempt (Desk H) Unit := do
  let next ← Desk.look
  if next ≠ Code.semicolon ∧ next ≠ Code.comma ∧ next ≠ Code.newline then
    throw .syntaxError

omit [Console H] in
theorem recognizes_itemEnd :
    Recognizes calculator Anything (itemEnd : Attempt (Desk H) Unit) id
      fun line _ rest => rest = line ∧ Parted line := by
  refine (recognizes_look.bind (fun code line _ rest => rest = line ∧
    code ∈ [Code.newline, Code.semicolon, Code.comma]) (fun code => ?_)
      fun _ _ _ _ _ _ => trivial).of_iff fun line leads rest => ?_
  · by_cases parted : code ∈ [Code.newline, Code.semicolon, Code.comma]
    · have goesOn : ¬(code ≠ Code.semicolon ∧ code ≠ Code.comma ∧ code ≠ Code.newline) := by
        simp at parted
        tauto
      rw [if_neg goesOn]
      exact (Recognizes.pure _ _).of_iff fun _ _ _ => by simp [parted]
    · have stops : code ≠ Code.semicolon ∧ code ≠ Code.comma ∧ code ≠ Code.newline := by
        simp at parted
        tauto
      rw [if_pos stops]
      exact (Recognizes.throw _ _).of_iff fun _ _ _ => by simp [parted]
  · simp [Parted]

theorem printItem_at :
    (printItem (.blank config) .check Keyword.«at».code : Attempt (Desk H) Unit) = (do
      Desk.advance
      let _ ← numberPair (.blank config) .check
      itemEnd) := rfl

theorem printItem_tab :
    (printItem (.blank config) .check Keyword.tab.code : Attempt (Desk H) Unit) = (do
      Desk.advance
      let _ ← number (.blank config) .check
      itemEnd) := rfl

theorem printItem_value (noPlace : code ≠ Keyword.«at».code) (noTab : code ≠ Keyword.tab.code) :
    (printItem (.blank config) .check code : Attempt (Desk H) Unit) = (do
      let _ ← expression (.blank config) .check
      itemEnd) := by
  rw [printItem, if_neg noPlace, if_neg noTab]
  rfl

theorem printItems_succ (newline : Bool) :
    (printItems (.blank config) .check (turns + 1) newline : Attempt (Desk H) Unit) = (do
      let code ← Desk.look
      if code = Code.newline then
        pure ()
      else if code = Code.semicolon ∨ code = Code.comma then do
        Desk.advance
        printItems (.blank config) .check turns false
      else do
        printItem (.blank config) .check code
        printItems (.blank config) .check turns true) := by
  rw [printItems]
  congr
  funext code
  by_cases ends : code = Code.newline
  · rw [if_pos ends, if_pos ends]
    cases newline <;> rfl
  · rw [if_neg ends, if_neg ends]
    by_cases semicolon : code = Code.semicolon
    · rw [if_pos semicolon, if_pos (.inl semicolon)]
    · by_cases comma : code = Code.comma
      · rw [if_neg semicolon, if_pos comma, if_pos (.inr comma)]
        rfl
      · rw [if_neg semicolon, if_neg comma, if_neg (by tauto)]

omit [Console H] in
/-- What is read of an item goes on up to a separator or the end. -/
theorem recognizes_parted {α β : Type} {step : Attempt (Desk H) α} {view : α → β}
    {kind : β → List Code → Prop} (reads : Recognizes calculator Ends step view (Opens kind)) :
    Recognizes calculator Anything (do let _ ← step; itemEnd) (fun _ => ())
      fun line _ rest => Parted rest ∧ ∃ seen codes, kind seen codes ∧ line = codes ++ rest := by
  refine (reads.andThen (fun _ => recognizes_itemEnd) ?_).of_iff fun line seen rest => ?_
  · rintro middle _ rest ⟨rfl, parted⟩ _
    refine ends_of_head ?_
    rw [Parted] at parted
    simp at parted ⊢
    tauto
  · simp [Opens]
    grind

/-- An item is taken off the line that opens with its code. -/
theorem sound_item (ready : Ready (idle config) desk) (opens : desk.scanner.line = code :: rest)
    (run : printItem (.blank config) .check code desk = (.ok (), reached)) :
    Ready (idle config) reached ∧ Parted reached.scanner.line ∧
      ∃ item, Item config item ∧ desk.scanner.line = item ++ reached.scanner.line := by
  by_cases place : code = Keyword.«at».code
  · subst place
    obtain ⟨passed, left⟩ := ready.advance opens (by decide)
    rw [printItem_at, Attempt.bind_apply, Desk.advance_apply] at run
    obtain ⟨ends, parted, -, codes, ⟨row, column, first, second, rfl⟩, line⟩ :=
      (recognizes_parted (recognizes_numberPair config)).sound passed run
    refine ⟨ends, parted, _, .place first second, ?_⟩
    rw [opens, ← left, line, List.cons_append]
  by_cases tab : code = Keyword.tab.code
  · subst tab
    obtain ⟨passed, left⟩ := ready.advance opens (by decide)
    rw [printItem_tab, Attempt.bind_apply, Desk.advance_apply] at run
    obtain ⟨ends, parted, -, codes, phrase, line⟩ :=
      (recognizes_parted (recognizes_numeric config)).sound passed run
    refine ⟨ends, parted, _, .tab phrase, ?_⟩
    rw [opens, ← left, line, List.cons_append]
  · rw [printItem_value place tab] at run
    obtain ⟨ends, parted, isText, codes, phrase, line⟩ :=
      (recognizes_parted (recognizes_phrase config)).sound ready run
    exact ⟨ends, parted, codes, .value phrase, line⟩

theorem Item.exists_cons {item : List Code} (items : Item config item) :
    ∃ code others, item = code :: others ∧
      code ∉ [Code.newline, Code.semicolon, Code.comma] := by
  cases items with
  | value phrase =>
      obtain ⟨code, others, opens, starts⟩ := phrase.exists_cons
      exact ⟨code, others, opens, fun member => starts (by simp at member ⊢; tauto)⟩
  | place => exact ⟨_, _, rfl, by decide⟩
  | tab => exact ⟨_, _, rfl, by decide⟩

theorem complete_item {item : List Code} (ready : Ready (idle config) desk)
    (items : Item config item) (line : desk.scanner.line = item ++ rest) (parted : Parted rest) :
    ∃ reached, printItem (.blank config) .check (desk.scanner.line.headD Code.newline) desk =
        (.ok (), reached) ∧ reached.scanner.line = rest := by
  cases items with
  | @value isText _ phrase =>
      obtain ⟨code, others, opens, starts⟩ := phrase.exists_cons
      have head : desk.scanner.line.headD Code.newline = code := by
        rw [line, opens, List.cons_append, List.headD_cons]
      have noPlace : code ≠ Keyword.«at».code := fun same => starts (by simp [same])
      have noTab : code ≠ Keyword.tab.code := fun same => starts (by simp [same])
      obtain ⟨_, reached, run, left⟩ := (recognizes_parted (recognizes_phrase config)).ends ready
        ⟨parted, isText, _, phrase, line⟩ trivial
      exact ⟨reached, by rw [head, printItem_value noPlace noTab]; exact run, left⟩
  | @place row column first second =>
      obtain ⟨passed, gone⟩ := ready.advance line (by decide)
      obtain ⟨_, reached, run, left⟩ := (recognizes_parted (recognizes_numberPair config)).ends
        passed ⟨parted, (), _, ⟨row, column, first, second, rfl⟩, gone⟩ trivial
      refine ⟨reached, ?_, left⟩
      rw [line, List.cons_append, List.headD_cons, printItem_at, Attempt.bind_apply,
        Desk.advance_apply]
      exact run
  | tab phrase =>
      obtain ⟨passed, gone⟩ := ready.advance line (by decide)
      obtain ⟨_, reached, run, left⟩ := (recognizes_parted (recognizes_numeric config)).ends
        passed ⟨parted, (), _, phrase, gone⟩ trivial
      refine ⟨reached, ?_, left⟩
      rw [line, List.cons_append, List.headD_cons, printItem_tab, Attempt.bind_apply,
        Desk.advance_apply]
      exact run

/-- Items stay items without a separator in front. -/
theorem Items.behind (items : Items config (code :: rest))
    (separates : code = Code.semicolon ∨ code = Code.comma) : Items config rest := by
  have separator : code ∈ [Code.newline, Code.semicolon, Code.comma] := by
    simp
    tauto
  generalize whole : code :: rest = line at items
  cases items with
  | nil => cases whole
  | separator _ items =>
      cases whole
      exact items
  | last item =>
      obtain ⟨first, others, rfl, starts⟩ := item.exists_cons
      cases whole
      exact absurd separator starts
  | item item _ _ =>
      obtain ⟨first, others, rfl, starts⟩ := item.exists_cons
      cases whole
      exact absurd separator starts

/-- The items that are read off a line are all of it. -/
theorem sound_printItems {newline : Bool} (ready : Ready (idle config) desk)
    (run : printItems (.blank config) .check turns newline desk = (.ok (), reached)) :
    Ready (idle config) reached ∧ reached.scanner.line = [] ∧
      Items config desk.scanner.line := by
  induction turns generalizing newline desk with
  | zero => cases run
  | succ turns inductionHypothesis =>
      rw [printItems_succ, Attempt.bind_apply, ready.look_apply] at run
      dsimp only at run
      have looked := ready.look_line
      cases line : desk.scanner.line with
      | nil =>
          rw [line, List.headD_nil, if_pos rfl] at run
          cases run
          exact ⟨ready.look, looked.trans line, .nil⟩
      | cons code rest =>
          have opens := looked.trans line
          have more := Scanner.ne_newline_of_line line
          rw [line, List.headD_cons, if_neg more] at run
          by_cases separates : code = Code.semicolon ∨ code = Code.comma
          · rw [if_pos separates, Attempt.bind_apply, Desk.advance_apply] at run
            have plain : code.Plain := by rcases separates with rfl | rfl <;> decide
            obtain ⟨passed, left⟩ := ready.look.advance opens plain
            obtain ⟨ends, gone, items⟩ := inductionHypothesis passed run
            rw [left] at items
            exact ⟨ends, gone, .separator separates items⟩
          · rw [if_neg separates] at run
            obtain ⟨_, between, first, others⟩ := Attempt.exists_of_bind_eq_ok run
            obtain ⟨halfway, parted, item, items, taken⟩ := sound_item ready.look opens first
            obtain ⟨ends, gone, further⟩ := inductionHypothesis halfway others
            refine ⟨ends, gone, ?_⟩
            rw [← opens, taken]
            cases behind : between.scanner.line with
            | nil =>
                rw [List.append_nil]
                exact .last items
            | cons next following =>
                rw [behind] at parted further
                have separates : next = Code.semicolon ∨ next = Code.comma := by
                  have inside := Scanner.ne_newline_of_line behind
                  simp [Parted] at parted
                  tauto
                exact .item items separates (further.behind separates)

/-- Reading items goes well on a line, with turns enough. -/
def Prints (H : Type) [Console H] (config : Config) (line : List Code) : Prop :=
  ∀ (desk : Desk H) (turns : Nat) (newline : Bool), Ready (idle config) desk →
    desk.scanner.line = line → line.length < turns →
    ∃ reached, printItems (.blank config) .check turns newline desk = (.ok (), reached) ∧
      reached.scanner.line = []

theorem prints_nil : Prints H config [] := by
  intro desk turns newline ready line enough
  obtain ⟨turns, rfl⟩ := Nat.exists_eq_add_of_lt enough
  refine ⟨{ desk with scanner := desk.scanner.look }, ?_, ready.look_line.trans line⟩
  rw [printItems_succ, Attempt.bind_apply, ready.look_apply, line, List.headD_nil]
  rfl

theorem Prints.separator (prints : Prints H config rest)
    (separates : code = Code.semicolon ∨ code = Code.comma) : Prints H config (code :: rest) := by
  intro desk turns newline ready line enough
  obtain ⟨turns, rfl⟩ : ∃ fewer, turns = fewer + 1 := ⟨turns - 1, by omega⟩
  have more : code ≠ Code.newline := by rcases separates with rfl | rfl <;> decide
  have plain : code.Plain := by rcases separates with rfl | rfl <;> decide
  obtain ⟨passed, left⟩ := ready.look.advance (ready.look_line.trans line) plain
  obtain ⟨reached, run, gone⟩ := prints _ turns false passed left
    (by rw [List.length_cons] at enough; omega)
  refine ⟨reached, ?_, gone⟩
  rw [printItems_succ, Attempt.bind_apply, ready.look_apply, line, List.headD_cons]
  dsimp only
  rw [if_neg more, if_pos separates, Attempt.bind_apply, Desk.advance_apply]
  exact run

theorem Prints.item {item : List Code} (prints : Prints H config rest) (items : Item config item)
    (parted : Parted rest) : Prints H config (item ++ rest) := by
  intro desk turns newline ready line enough
  obtain ⟨turns, rfl⟩ : ∃ fewer, turns = fewer + 1 := ⟨turns - 1, by omega⟩
  obtain ⟨code, others, opens, starts⟩ := items.exists_cons
  have more : code ≠ Code.newline := fun same => starts (by simp [same])
  have noSeparator : ¬(code = Code.semicolon ∨ code = Code.comma) := fun separates =>
    starts (by simp; tauto)
  have looked := ready.look_line.trans line
  have head : desk.scanner.line.headD Code.newline = code := by
    rw [line, opens, List.cons_append, List.headD_cons]
  obtain ⟨between, first, left⟩ := complete_item ready.look items looked parted
  have same : desk.scanner.look.line.headD Code.newline = code := by rw [ready.look_line, head]
  dsimp only at first
  rw [same] at first
  have halfway := (sound_item ready.look (by rw [looked, opens, List.cons_append]) first).1
  obtain ⟨reached, run, gone⟩ := prints between turns true halfway left (by
    rw [opens, List.length_append, List.length_cons] at enough
    omega)
  refine ⟨reached, ?_, gone⟩
  rw [printItems_succ, Attempt.bind_apply, ready.look_apply, head]
  dsimp only
  rw [if_neg more, if_neg noSeparator, Attempt.bind_apply, first]
  exact run

theorem prints_of_items (items : Items config line) : Prints H config line := by
  induction items with
  | nil => exact prints_nil
  | separator separates _ inductionHypothesis => exact inductionHypothesis.separator separates
  | @last item items =>
      rw [← List.append_nil item]
      exact prints_nil.item items (by simp [Parted])
  | item item separates _ inductionHypothesis =>
      refine (inductionHypothesis.separator separates).item item ?_
      simp [Parted]
      tauto

/-! ## The values of a `DATA` -/

/-- The values that are read off a line are all of it. -/
theorem sound_dataItems (ready : Ready (idle config) desk)
    (run : dataItems (.blank config) .check turns desk = (.ok (), reached)) :
    Ready (idle config) reached ∧ reached.scanner.line = [] ∧
      Values config desk.scanner.line := by
  induction turns generalizing desk with
  | zero => cases run
  | succ turns inductionHypothesis =>
      obtain ⟨value, between, first, run⟩ := Attempt.exists_of_bind_eq_ok run
      obtain ⟨halfway, codes, phrase, taken⟩ := (recognizes_phrase config).sound ready first
      rw [Attempt.bind_apply, halfway.look_apply] at run
      dsimp only at run
      have looked := halfway.look_line
      by_cases comma : between.scanner.line.headD Code.newline = Code.comma
      · rw [if_pos comma, Attempt.bind_apply, Desk.advance_apply] at run
        obtain ⟨others, opens⟩ := exists_cons_of_headD comma (by decide)
        obtain ⟨passed, left⟩ := halfway.look.advance (looked.trans opens) (by decide)
        obtain ⟨ends, gone, values⟩ := inductionHypothesis passed run
        rw [left] at values
        refine ⟨ends, gone, ?_⟩
        rw [taken, opens]
        exact .more phrase values
      · rw [if_neg comma] at run
        obtain ⟨ends, nothing, gone⟩ := recognizes_expectEnd.sound halfway.look run
        refine ⟨ends, gone, ?_⟩
        rw [taken, looked.symm.trans nothing, List.append_nil]
        exact .last phrase

theorem complete_dataItems (ready : Ready (idle config) desk)
    (values : Values config desk.scanner.line) (enough : desk.scanner.line.length < turns) :
    ∃ reached, dataItems (.blank config) .check turns desk = (.ok (), reached) ∧
      reached.scanner.line = [] := by
  generalize opens : desk.scanner.line = line at values enough
  induction values generalizing desk turns with
  | @last isText codes phrase =>
      obtain ⟨turns, rfl⟩ : ∃ fewer, turns = fewer + 1 := ⟨turns - 1, by omega⟩
      obtain ⟨value, between, first, -, left⟩ := (recognizes_phrase config).complete ready
        ⟨codes, phrase, opens.trans (List.append_nil _).symm⟩ ends_nil
      have halfway := ((recognizes_phrase config).sound ready first).1
      obtain ⟨done, reached, run, gone⟩ := recognizes_expectEnd.ends halfway.look
        ⟨halfway.look_line.trans left, rfl⟩ trivial
      refine ⟨reached, ?_, gone⟩
      have noComma : Code.newline ≠ Code.comma := by decide
      rw [dataItems, Attempt.bind_apply, first]
      dsimp only
      rw [Attempt.bind_apply, halfway.look_apply, left, List.headD_nil]
      dsimp only
      rw [if_neg noComma]
      exact run
  | @more isText codes rest phrase _ inductionHypothesis =>
      obtain ⟨turns, rfl⟩ : ∃ fewer, turns = fewer + 1 := ⟨turns - 1, by omega⟩
      obtain ⟨value, between, first, -, left⟩ := (recognizes_phrase config).complete ready
        ⟨codes, phrase, opens⟩ (ends_comma rest)
      have halfway := ((recognizes_phrase config).sound ready first).1
      obtain ⟨passed, behind⟩ := halfway.look.advance (halfway.look_line.trans left) (by decide)
      have fewer : rest.length < turns := by
        rw [List.length_append, List.length_cons] at enough
        omega
      obtain ⟨reached, run, gone⟩ := inductionHypothesis passed behind fewer
      refine ⟨reached, ?_, gone⟩
      rw [dataItems, Attempt.bind_apply, first]
      dsimp only
      rw [Attempt.bind_apply, halfway.look_apply, left, List.headD_cons]
      dsimp only
      rw [if_pos rfl, Attempt.bind_apply, Desk.advance_apply]
      exact run

/-! ## All the forms -/

omit [Console H] in
theorem turnsLeft_apply (desk : Desk H) :
    turnsLeft desk = (.ok (desk.scanner.rest.length + 1), desk) := rfl

omit [Console H] in
/-- Every turn takes a code off the line, so the turns suffice. -/
theorem length_line_lt (desk : Desk H) :
    desk.scanner.line.length < desk.scanner.rest.length + 1 :=
  Nat.lt_succ_of_le desk.scanner.codesLeft_le_length

/-- A form of its own that takes its turns up to the end of the line. -/
theorem recognizes_turns {turned : Nat → Attempt (Desk H) Unit}
    (form : (afterWord (.blank config) .check word : Attempt (Desk H) Outcome) = (do
      turned (← turnsLeft)
      return .done))
    (sound : ∀ {desk reached turns}, Ready (idle config) desk →
      turned turns desk = (.ok (), reached) → Ready (idle config) reached ∧
        reached.scanner.line = [] ∧ Complement config word desk.scanner.line)
    (complete : ∀ {desk turns}, Ready (idle config) desk →
      Complement config word desk.scanner.line → desk.scanner.line.length < turns →
        ∃ reached, turned turns desk = (.ok (), reached) ∧ reached.scanner.line = []) :
    Recognizes (idle config) Anything
      (afterWord (.blank config) .check word : Attempt (Desk H) Outcome) Outcome.leads
      (Completes config word) where
  sound := by
    intro desk reached outcome ready run
    rw [form] at run
    obtain ⟨turns, between, left, run⟩ := Attempt.exists_of_bind_eq_ok run
    cases left
    obtain ⟨_, between, read, run⟩ := Attempt.exists_of_bind_eq_ok run
    cases run
    obtain ⟨ends, gone, complement⟩ := sound ready read
    exact ⟨ends, rfl, gone, complement⟩
  complete := by
    rintro desk leads rest ready ⟨rfl, rfl, complement⟩ _
    obtain ⟨reached, run, gone⟩ := complete ready complement (length_line_lt desk)
    refine ⟨.done, reached, ?_, rfl, gone⟩
    rw [form, Attempt.bind_apply, turnsLeft_apply]
    dsimp only
    rw [Attempt.bind_apply, run]
    rfl

theorem recognizes_print :
    Recognizes (idle config) Anything
      (afterWord (.blank config) .check .print : Attempt (Desk H) Outcome) Outcome.leads
      (Completes config .print) :=
  recognizes_turns (afterWord_ownForm _ rfl)
    (fun ready run => (sound_printItems ready run).imp_right (And.imp_right .print))
    fun {desk turns} ready complement enough =>
      prints_of_items complement.items desk turns true ready rfl enough

theorem recognizes_data :
    Recognizes (idle config) Anything
      (afterWord (.blank config) .check .data : Attempt (Desk H) Outcome) Outcome.leads
      (Completes config .data) :=
  recognizes_turns (afterWord_ownForm _ rfl)
    (fun ready run => (sound_dataItems ready run).imp_right (And.imp_right .data))
    fun ready complement enough => complete_dataItems ready complement.values enough

theorem recognizes_remark :
    Recognizes (idle config) Anything
      (afterWord (.blank config) .check .rem : Attempt (Desk H) Outcome) Outcome.leads
      (Completes config .rem) where
  sound := by
    intro desk reached outcome ready run
    rw [afterWord_ownForm _ rfl] at run
    cases run
    have gone := Scanner.line_skipToEnd desk.scanner
    exact ⟨⟨by rw [gone]; trivial, ready.calculator⟩, rfl, gone, .remark _⟩
  complete := by
    rintro desk leads rest ready ⟨rfl, rfl, -⟩ _
    refine ⟨.done, { desk with scanner := desk.scanner.skipToEnd }, ?_, rfl,
      Scanner.line_skipToEnd desk.scanner⟩
    rw [afterWord_ownForm _ rfl]
    rfl

theorem recognizes_loop :
    Recognizes (idle config) Anything
      (afterWord (.blank config) .check .for : Attempt (Desk H) Outcome) Outcome.leads
      (Completes config .for) := by
  rw [afterWord_ownForm _ rfl]
  refine (recognizes_loopForm.andThen (fun command => recognizes_act command)
    fun _ _ _ _ _ => trivial).of_iff fun line leads rest => ?_
  simp [Completes]
  grind

theorem recognizes_dimension :
    Recognizes (idle config) Anything
      (afterWord (.blank config) .check .dim : Attempt (Desk H) Outcome) Outcome.leads
      (Completes config .dim) := by
  rw [afterWord_ownForm _ rfl]
  refine (recognizes_dimensionForm.andThen (fun command => recognizes_act command)
    fun _ _ _ _ _ => trivial).of_iff fun line leads rest => ?_
  simp [Completes]
  grind

/-- What goes with a word is taken off the line, up to its end. -/
theorem recognizes_afterWord (noBranch : word ≠ .if) :
    Recognizes (idle config) Anything
      (afterWord (.blank config) .check word : Attempt (Desk H) Outcome) Outcome.leads
      (Completes config word) := by
  cases word with
  | «if» => exact absurd rfl noBranch
  | list | run | restore => exact recognizes_optionalWord (by decide)
  | new | clear | cont | «return» | stop | cls => exact recognizes_nothing (by decide)
  | save | load | goto | gosub | wait => exact recognizes_numberWord (by decide)
  | «let» => exact recognizes_let
  | input | read => exact recognizes_placeWord (by decide)
  | next => exact recognizes_next
  | poke | beep => exact recognizes_pairWord (by decide)
  | print => exact recognizes_print
  | «for» => exact recognizes_loop
  | rem => exact recognizes_remark
  | dim => exact recognizes_dimension
  | data => exact recognizes_data

end Grammar
end HomeBasic
