import HomeBasic.Proofs.Line.Editing
import HomeBasic.Proofs.Machine.Typing
import HomeBasic.Proofs.Machine.Whereabouts
import Mathlib.Data.List.Infix

/-!
# The edit line as it is shown

However a machine came to be editing again after a key, its edit line was checked and shown
last of all. So what is shown is told by the text and the cursor alone: the text with a glyph
at the cursor, and with a mark where its check finds a fault. Nothing is left of a mark or
a cursor from before, also not from an `INPUT`, which uses the same line.

The keys themselves change a text with a cursor in it, and enter and the keys that bring lines
back tell which text comes next.

Main statement: `shown_faithful`.
-/

namespace HomeBasic

namespace EditLine

/-- The text with a glyph at the cursor, and with a mark where its check finds a fault. -/
def display (config : Config) (edit : EditLine) : List Code :=
  let verdict := edit.refresh.check config
  let glyphed := edit.text.insertIdx edit.cursor verdict.shownGlyph.code
  match verdict.result with
  | .ok _ => glyphed
  | .error (_, position) =>
      let column := (crunch edit.text).column position
      glyphed.insertIdx (if column ≤ edit.cursor then column else column + 1) faultMark

theorem render_eq_display {config : Config} {edit : EditLine} (placed : edit.Placed)
    (checked : edit.Checked config) :
    edit.render (edit.check config).shownGlyph = edit.display config := by
  have crunched : edit.crunched = crunch edit.text := by
    conv_lhs => rw [← checked.refresh]
    rfl
  have marker := checked.marker
  unfold display
  rw [checked.refresh]
  dsimp only
  cases result : (edit.check config).result with
  | ok number =>
      rw [faultColumn, result] at marker
      exact render_unmarked placed marker _
  | error found =>
      rw [faultColumn, result, crunched] at marker
      exact render_marked placed marker (column_crunch_le _ _) _

end EditLine

namespace Machine

open CursorText (Change)

variable {H : Type} [Console H] {typable : Key → Prop} {config : Config} {machine : Machine H}

/-! ## What is shown last -/

/-- If the machine is editing, its edit line was checked and shown last of all. -/
def Refreshed (machine : Machine H) : Prop :=
  machine.phase = .editing → ∃ before : Machine H, machine = before.refreshEdit

theorem Concluded.refreshed (concluded : machine.Concluded) : machine.Refreshed := by
  intro editing
  obtain ⟨before, inProgram, outcome, rfl⟩ := concluded editing
  exact ⟨_, rfl⟩

theorem refreshed_press (key : Key) : (machine.press key).2.Refreshed := by
  cases key with
  | enter =>
      have submitted := machine.submitted
      generalize machine.press .enter = answer at submitted ⊢
      cases submitted with
      | direct => exact nofun
      | blank | refused | full | stored => exact fun _ => ⟨_, rfl⟩
  | up | down | code _ | left | right | delete | «break» => exact fun _ => ⟨_, rfl⟩

theorem refreshed_type (steps : Nat) (key : Key) : (machine.type steps key).2.Refreshed :=
  settle_of_advance (fun _ _ busy => (concluded_advance busy).refreshed) steps
    (refreshed_press key)

/-- What the console was told last is to show the edit line as it stands. -/
structure Faithful (machine : Machine H) : Prop where
  cursor : machine.edit.cursor ≤ machine.edit.text.length
  shown : ∃ console,
    machine.console = Console.showEditLine (machine.edit.display machine.config) console
  column : ∀ fault position,
    (machine.edit.refresh.check machine.config).result = .error (fault, position) →
      (crunch machine.edit.text).column position ≤ machine.edit.text.length

theorem Refreshed.faithful (refreshed : machine.Refreshed) (quiescent : machine.Quiescent)
    (placed : machine.edit.Placed) : machine.Faithful := by
  refine ⟨placed, ?_, fun _ _ _ => column_crunch_le _ _⟩
  obtain ⟨before, same⟩ := refreshed quiescent.editing
  have shown : machine.console =
      Console.showEditLine (machine.edit.render (machine.glyph.getD .letter)) before.console := by
    rw [same]
    rfl
  rw [quiescent.glyph] at shown
  exact ⟨before.console, shown.trans
    (congrArg (Console.showEditLine · _) (EditLine.render_eq_display placed quiescent.edit))⟩

theorem Reached.placed (reached : Reached typable config machine) : machine.edit.Placed := by
  have moved (before changed : Machine H) (placed : before.edit.Placed)
      (move : Move typable before changed) : changed.edit.Placed := by
    cases move with
    | press => exact placed_press placed _
    | advance => exact placed_advance placed
    | retype => exact before.edit.placed_clear
    | outside => exact placed
  exact reached.of_moves (fun console => (placed_start config console).edit) moved

/-! ## What keys do to the text -/

/-- The line of the program that is listed in front of the current one. -/
def lineBefore? (machine : Machine H) : Option Line :=
  (machine.program.lines.takeWhile (·.number < machine.edit.current)).getLast?

/-- The line of the program that is listed behind the current one. -/
def lineAfter? (machine : Machine H) : Option Line :=
  machine.program.lines.find? (min (machine.edit.current + 1) 65535 ≤ ·.number)

/-- What a key does to the text of the edit line, if anything. -/
def changesOf (key : Key) (machine : Machine H) : List Change :=
  match key with
  | .code code => [.insert code]
  | .delete => [.deleteLeft]
  | .left => [.left]
  | .right => [.right]
  | .break => [.clear]
  | .up => machine.lineBefore?.toList.map fun line => .setText (line.listing machine.config.word)
  | .down => machine.lineAfter?.toList.map fun line => .setText (line.listing machine.config.word)
  | .enter => if (machine.press .enter).1 then [.clear] else []

/-- What keys do to the text of the edit line, one after the other. -/
def changes (steps : Nat) : List Key → Machine H → List Change
  | [], _ => []
  | key :: rest, machine => machine.changesOf key ++ changes steps rest (machine.type steps key).2

/-- Checking and showing the edit line leaves its text alone, and the machine settled. -/
theorem plain_refreshEdit (editing : machine.phase = .editing) (steps : Nat) :
    (machine.refreshEdit.settle steps).edit.plain = machine.edit.plain := by
  obtain ⟨edit, glyph, codes, shown, text, cursor⟩ := exists_refreshEdit machine
  rw [shown, settle_of_editing (by exact editing), EditLine.plain, EditLine.plain, text, cursor]

omit [Console H] in
theorem plain_recallLine (offset : Nat) :
    (machine.recallLine offset).edit.plain =
      ((machine.program.lineAt? offset).toList.map fun line =>
        Change.setText (line.listing machine.config.word)).foldl .apply machine.edit.plain := by
  rw [recallLine]
  cases machine.program.lineAt? offset with
  | none => rfl
  | some line => exact EditLine.plain_of_append (List.append_nil _).symm rfl

omit [Console H] in
theorem plain_recallPrevious :
    machine.recallPrevious.edit.plain =
      (machine.lineBefore?.toList.map fun line =>
        Change.setText (line.listing machine.config.word)).foldl .apply machine.edit.plain := by
  rw [lineBefore?, ← machine.program.bind_find_snd, recallPrevious]
  cases (machine.program.find machine.edit.current).2 with
  | none => rfl
  | some offset => exact plain_recallLine offset

omit [Console H] in
theorem plain_recallNext :
    machine.recallNext.edit.plain =
      (machine.lineAfter?.toList.map fun line =>
        Change.setText (line.listing machine.config.word)).foldl .apply machine.edit.plain := by
  rw [lineAfter?, ← Program.lineAt?_find]
  exact plain_recallLine _

/-- However a line or a run ends, the edit line is empty. -/
theorem Concluded.plain_eq (concluded : machine.Concluded) (editing : machine.phase = .editing) :
    machine.edit.plain = .ended [] := by
  obtain ⟨before, inProgram, outcome, rfl⟩ := concluded editing
  exact @plain_refreshEdit _ _ { before with
    phase := .editing, edit := before.edit.clear } rfl 0

/-- Enter takes the text out of the edit line, or leaves it there where the line is refused. -/
theorem plain_enter (editing : machine.phase = .editing) {steps : Nat}
    (settled : (machine.type steps .enter).2.phase = .editing) :
    (machine.type steps .enter).2.edit.plain =
      (machine.changesOf .enter).foldl .apply machine.edit.plain := by
  have typed : (machine.type steps .enter).2 = (machine.press .enter).2.settle steps := rfl
  rw [changesOf]
  rw [typed] at settled ⊢
  have submitted := machine.submitted
  generalize machine.press .enter = answer at submitted settled ⊢
  cases submitted with
  | blank =>
      obtain ⟨edit, glyph, console, listed, text, cursor⟩ := machine.exists_submitBlank
      dsimp only
      rw [listed, settle_of_editing (by exact editing)]
      exact EditLine.plain_of_append text cursor
  | refused | full | stored =>
      refine (plain_refreshEdit ?_ steps).trans rfl
      exact editing
  | direct =>
      have concluded : (settle steps (machine.examined.submitDirect
          machine.typedStatement)).Concluded :=
        settle_of_advance (fun _ _ busy => concluded_advance busy) steps nofun
      exact concluded.plain_eq settled

/-- A key changes the text as it says. -/
theorem plain_type (placed : machine.edit.Placed) (editing : machine.phase = .editing)
    {steps : Nat} {key : Key} (settled : (machine.type steps key).2.phase = .editing) :
    (machine.type steps key).2.edit.plain =
      (machine.changesOf key).foldl .apply machine.edit.plain := by
  have edited (change : Change) :
      (settle steps (refreshEdit { machine with edit := machine.edit.changed change })).edit.plain =
        machine.edit.plain.apply change :=
    (@plain_refreshEdit _ _ { machine with edit := machine.edit.changed change } editing
      steps).trans (EditLine.plain_changed placed change)
  have still (offset : Nat) : (machine.recallLine offset).phase = .editing := by
    unfold recallLine
    split <;> exact editing
  cases key with
  | code code => exact edited (.insert code)
  | delete => exact edited .deleteLeft
  | left => exact edited .left
  | right => exact edited .right
  | «break» => exact edited .clear
  | enter => exact plain_enter editing settled
  | up =>
      refine (plain_refreshEdit ?_ steps).trans plain_recallPrevious
      unfold recallPrevious
      split
      · exact still _
      · exact editing
  | down => exact (plain_refreshEdit (still _) steps).trans plain_recallNext

/-! ## Keys one after the other -/

/-- After each of the keys the machine is editing. -/
def Settles (steps : Nat) (keys : List Key) (machine : Machine H) : Prop :=
  ∀ front, front <+: keys → (machine.typeAll steps front).2.phase = .editing

theorem Settles.editing {steps : Nat} {keys : List Key} (settles : machine.Settles steps keys) :
    machine.phase = .editing :=
  settles [] (List.nil_prefix)

theorem Settles.tail {steps : Nat} {key : Key} {keys : List Key}
    (settles : machine.Settles steps (key :: keys)) :
    (machine.type steps key).2.Settles steps keys :=
  fun front isFront => settles (key :: front) (List.cons_prefix_cons.mpr ⟨rfl, isFront⟩)

/-- What is shown after a key is the edit line as it stands. -/
theorem faithful_type (reached : Reached typable config machine)
    (editing : machine.phase = .editing) {steps : Nat} {key : Key} (may : typable key)
    (settled : (machine.type steps key).2.phase = .editing) :
    (machine.type steps key).2.Faithful :=
  (refreshed_type steps key).faithful (ends_type editing reached.idle steps key settled)
    (reached.type editing may steps).placed

theorem faithful_typeAll (reached : Reached typable config machine) {steps : Nat}
    {keys : List Key} (may : ∀ key ∈ keys, typable key) (settles : machine.Settles steps keys)
    (some : keys ≠ []) : (machine.typeAll steps keys).2.Faithful := by
  induction keys generalizing machine with
  | nil => exact absurd rfl some
  | cons key keys inductionHypothesis =>
      obtain ⟨first, others⟩ := List.forall_mem_cons.mp may
      cases keys with
      | nil => exact faithful_type reached settles.editing first settles.tail.editing
      | cons next keys =>
          exact inductionHypothesis (reached.type settles.editing first steps) others settles.tail
            (List.cons_ne_nil _ _)

theorem plain_typeAll (reached : Reached typable config machine) {steps : Nat}
    {keys : List Key} (may : ∀ key ∈ keys, typable key) (settles : machine.Settles steps keys) :
    (machine.typeAll steps keys).2.edit.plain =
      (machine.changes steps keys).foldl .apply machine.edit.plain := by
  induction keys generalizing machine with
  | nil => rfl
  | cons key keys inductionHypothesis =>
      obtain ⟨first, others⟩ := List.forall_mem_cons.mp may
      rw [changes, List.foldl_append,
        ← plain_type reached.placed settles.editing settles.tail.editing]
      exact inductionHypothesis (reached.type settles.editing first steps) others settles.tail

theorem Reached.typeAll (reached : Reached typable config machine) {steps : Nat}
    {keys : List Key} (may : ∀ key ∈ keys, typable key) (settles : machine.Settles steps keys) :
    Reached typable config (machine.typeAll steps keys).2 := by
  induction keys generalizing machine with
  | nil => exact reached
  | cons key keys inductionHypothesis =>
      obtain ⟨first, others⟩ := List.forall_mem_cons.mp may
      exact inductionHypothesis (reached.type settles.editing first steps) others settles.tail

/--
Whatever keys are typed at a machine that is editing, the edit line holds what they make of a
text with a cursor in it. After each of them the cursor is within the text, and the line is shown
as it stands: with one glyph at the cursor, and with one mark exactly if it does not check, at
the column of the fault, which is within the text.
-/
theorem shown_faithful (reached : Reached typable config machine) {steps : Nat} {keys : List Key}
    (may : ∀ key ∈ keys, typable key) (settles : machine.Settles steps keys) :
    let typed := (machine.typeAll steps keys).2
    let plain := (machine.changes steps keys).foldl CursorText.apply machine.edit.plain
    typed.edit.text = plain.text ∧ typed.edit.cursor = plain.cursor ∧
      (keys ≠ [] → typed.Faithful) := by
  intro typed plain
  have same : typed.edit.plain = plain := plain_typeAll reached may settles
  rw [← same]
  exact ⟨typed.edit.text_plain.symm,
    (EditLine.cursor_plain (reached.typeAll may settles).placed).symm,
    faithful_typeAll reached may settles⟩

/-- A line is stored and brought back, and a code is taken out of its middle. -/
theorem shown_faithful_recalled :
    let machine := start {} (Recorder.start {} [] (MemorySlots.empty 2))
    let keys := (Code.encode "20 CLS").map Key.code ++ [.enter] ++
      (Code.encode "9").map Key.code ++ [.enter, .down, .left, .delete]
    machine.Settles 1 keys ∧
      (machine.typeAll 1 keys).2.edit.text = Code.encode "20 CS" ∧
      (machine.typeAll 1 keys).2.edit.cursor = 4 ∧
      Recorder.spell (machine.typeAll 1 keys).2.console.editLine = "20 C[L]S[S]" := by
  intro machine keys
  have settles : machine.Settles 1 keys := by
    have phases : ∀ front ∈ keys.inits, (machine.typeAll 1 front).2.phase = .editing := by
      decide +kernel
    exact fun front isFront => phases front ((List.mem_inits _ _).mpr isFront)
  have edited : (machine.changes 1 keys).foldl CursorText.apply machine.edit.plain =
      ⟨Code.encode "C 02", Code.encode "S"⟩ := by decide +kernel
  have display : Recorder.spell ((machine.typeAll 1 keys).2.edit.display
      (machine.typeAll 1 keys).2.config) = "20 C[L]S[S]" := by decide +kernel
  have records (codes : List Code) (recorder : Recorder MemorySlots) :
      (Console.showEditLine codes recorder).editLine = codes := rfl
  have reached : Reached (fun _ => True) {} machine := Reached.start _ _ _
  obtain ⟨text, cursor, faithful⟩ := shown_faithful reached (fun _ _ => trivial) settles
  obtain ⟨console, shown⟩ := (faithful (List.append_ne_nil_of_right_ne_nil _ nofun)).shown
  rw [edited] at text cursor
  refine ⟨settles, text.trans (by decide +kernel), cursor.trans (by decide +kernel), ?_⟩
  rw [shown, records, display]

end Machine
end HomeBasic
