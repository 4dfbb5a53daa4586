import HomeBasic.Proofs.Console.Keys
import HomeBasic.Proofs.Expression.Items
import HomeBasic.Proofs.Expression.Modes
import HomeBasic.Proofs.Expression.Stack
import HomeBasic.Proofs.Grammar.Forms
import HomeBasic.Proofs.Statement.Marks

/-!
# How a `PRINT` lays out its items

A `PRINT` that checks is a list of items: separators, values, tabs and places, with an expression
told by the place of the line where it starts (`Listed`). Carried out, it evaluates the items one
after the other and puts down the marks of each where it is met (`layOut`), and ends the line
unless the last item is a separator. The statement stops with the first fault of an expression
or the first mark that the display refuses, and what was put down before stays.

An execution is led along the line by its check, item by item, as each expression is read as far
as the check has read it.

Main statement: `printed_as_listed`.
-/

namespace HomeBasic

open Attempt (Sustains)

/-! ## Steps at a place of a line -/

namespace Desk

variable {H α β : Type} {calculator : BoundedStack Pending} {place behind : Scanner}

/-- What a step at a place of a line does to the console. -/
def readAt (place : Scanner) (calculator : BoundedStack Pending) (step : Attempt (Desk H) α) :
    Attempt H α := fun console =>
  let (result, reached) := step ⟨place, calculator, console⟩
  (result, reached.console)

/-- If a step ends well it leads from one place to another, with nothing more pending. -/
def LeadsTo (calculator : BoundedStack Pending) (place behind : Scanner)
    (step : Attempt (Desk H) α) : Prop :=
  ∀ console value reached, step ⟨place, calculator, console⟩ = (.ok value, reached) →
    reached = ⟨behind, calculator, reached.console⟩

theorem readAt_bind {step : Attempt (Desk H) α} (leads : LeadsTo calculator place behind step)
    (next : α → Attempt (Desk H) β) :
    readAt place calculator (step >>= next) =
      readAt place calculator step >>= fun value => readAt behind calculator (next value) := by
  funext console
  rw [Attempt.bind_apply, readAt, readAt, Attempt.bind_apply]
  rcases run : step ⟨place, calculator, console⟩ with ⟨fault | value, reached⟩
  · rfl
  · have led := leads _ _ _ run
    rw [led]
    rfl

theorem readAt_look (next : Code → Attempt (Desk H) β) :
    readAt place calculator (look >>= next) =
      readAt place.look calculator (next place.look.current) := rfl

theorem readAt_advance (next : Unit → Attempt (Desk H) β) :
    readAt place calculator (advance >>= next) = readAt place.advance calculator (next ()) := rfl

theorem readAt_consulting (step : Attempt H α) (next : α → Attempt (Desk H) β) :
    readAt place calculator (consulting step >>= next) =
      step >>= fun value => readAt place calculator (next value) := by
  refine readAt_bind (fun console value reached run => ?_) next
  have kept : _ = reached := congrArg Prod.snd run
  rw [← kept]
  rfl

theorem readAt_expect {code : Code} (found : place.look.current = code)
    (next : Unit → Attempt (Desk H) β) :
    readAt place calculator (expect code >>= next) =
      readAt place.look.advance calculator (next ()) := by
  funext console
  rw [readAt, Attempt.bind_apply, expect_apply, if_pos found]
  rfl

/-- What a step leaves alone at a desk it leaves alone at a place of a line. -/
theorem sustains_readAt {holds : H → Prop} {step : Attempt (Desk H) α}
    (sustains : Sustains (fun desk : Desk H => holds desk.console) step fun _ => True) :
    Sustains holds (readAt place calculator step) fun _ => True :=
  Attempt.sustains_of_kept fun console start =>
    sustains.kept (show holds (⟨place, calculator, console⟩ : Desk H).console from start)

end Desk

namespace Statement

open Desk (LeadsTo readAt readAt_advance readAt_bind readAt_consulting readAt_expect readAt_look
  sustains_readAt)
open Grammar (itemEnd)

/-! ## Expressions on a line that checks -/

section
variable {H α : Type} [Console H] {config : Config} {environment : Environment}
  {calculator : BoundedStack Pending} {place behind : Scanner}

/-- A check reads from one place of a line to another. -/
def Spans (calculator : BoundedStack Pending) (place behind : Scanner)
    (check : Attempt (Desk NoConsole) α) : Prop :=
  ∃ value reached, check ⟨place, calculator, {}⟩ = (.ok value, reached) ∧ reached.scanner = behind

/-- An expression is carried out as far as it checks. -/
theorem leads_expression (same : environment.config = config)
    (spans : Spans calculator place behind (expression (.blank config) .check)) :
    LeadsTo calculator place behind (expression environment .execute : Attempt (Desk H) Value) := by
  intro console value reached run
  obtain ⟨checked, ended, check, rfl⟩ := spans
  have parallel : Expression.Parallel (Expression.typing NoConsole H environment) (.blank config)
      environment .check .execute := Expression.parallel_modes same
  have beside : (Expression.typing NoConsole H environment).Beside ⟨place, calculator, {}⟩
      ⟨place, calculator, console⟩ :=
    ⟨rfl, rfl, List.forall₂_same.mpr fun _ _ => ⟨rfl, rfl, rfl⟩, trivial⟩
  have together := Expression.keeps_evaluateWithin parallel config.maxNesting _ _ beside
  have stacked := (Expression.stacked_evaluateWithin environment .execute
    config.maxNesting calculator).kept (show (⟨place, calculator, console⟩ : Desk H).calculator = _
      from rfl)
  rw [expression, Expression.evaluate, same] at run
  rw [expression, Expression.evaluate] at check
  change Expression.evaluateWithin _ _ config.maxNesting _ = _ at check
  rw [check, run] at together
  rw [run] at stacked
  obtain ⟨scanner, calculator, terminal⟩ := reached
  obtain rfl : calculator = _ := stacked
  obtain rfl : scanner = _ := together.2.scanner
  rfl

theorem leads_number (same : environment.config = config)
    (spans : Spans calculator place behind (number (.blank config) .check)) :
    LeadsTo calculator place behind (number environment .execute : Attempt (Desk H) Int) := by
  intro console value reached run
  obtain ⟨checked, ended, check, rfl⟩ := spans
  obtain ⟨shown, between, check, rest⟩ := Attempt.exists_of_bind_eq_ok check
  obtain ⟨found, halfway, run, last⟩ := Attempt.exists_of_bind_eq_ok run
  have led := leads_expression same ⟨shown, between, check, rfl⟩ _ _ _ run
  cases shown with
  | text codes => cases rest
  | number shown =>
      cases rest
      cases found with
      | text codes => cases last
      | number found =>
          cases last
          exact led

/-- A check leaves nothing more pending. -/
theorem exists_spans_expression {value : Value} {reached : Desk NoConsole}
    (check : expression (.blank config) .check ⟨place, calculator, {}⟩ = (.ok value, reached)) :
    Spans calculator place reached.scanner (expression (.blank config) .check) ∧
      reached = ⟨reached.scanner, calculator, {}⟩ := by
  have stacked := (Expression.stacked_evaluateWithin (.blank config) .check config.maxNesting
    calculator).kept (show (⟨place, calculator, {}⟩ : Desk NoConsole).calculator = _ from rfl)
  have kept : reached.calculator = calculator :=
    (congrArg (·.2.calculator) check).symm.trans stacked
  exact ⟨⟨value, reached, check, rfl⟩, by rw [← kept]⟩

theorem exists_spans_number {value : Int} {reached : Desk NoConsole}
    (check : number (.blank config) .check ⟨place, calculator, {}⟩ = (.ok value, reached)) :
    Spans calculator place reached.scanner (number (.blank config) .check) ∧
      reached = ⟨reached.scanner, calculator, {}⟩ := by
  refine ⟨⟨value, reached, check, rfl⟩, ?_⟩
  obtain ⟨shown, between, check, rest⟩ := Attempt.exists_of_bind_eq_ok check
  cases shown with
  | text codes => cases rest
  | number shown =>
      cases rest
      exact (exists_spans_expression check).2

end

/-! ## Items -/

/-- An item of a `PRINT`, with its expressions told by where they start. -/
inductive PrintItem
  | semicolon
  | comma
  | value (expression : Scanner)
  | tab (number : Scanner)
  | place (row column : Scanner)

/-- The item only separates others. -/
def PrintItem.separates : PrintItem → Bool
  | semicolon | comma => true
  | _ => false

section
variable (config : Config) (calculator : BoundedStack Pending)

/-- An item that is no separator stands at a place of a line, up to another one. -/
inductive ItemAt (place : Scanner) : PrintItem → Scanner → Prop
  | value {behind : Scanner} :
      place.current ∉ [Code.newline, Code.semicolon, Code.comma, Keyword.at.code,
        Keyword.tab.code] →
      Spans calculator place behind (expression (.blank config) .check) →
      ItemAt place (.value place) behind
  | tab {behind : Scanner} :
      place.current = Keyword.tab.code →
      Spans calculator place.advance behind (number (.blank config) .check) →
      ItemAt place (.tab place.advance) behind
  | place {middle behind : Scanner} :
      place.current = Keyword.at.code →
      Spans calculator place.advance middle (number (.blank config) .check) →
      middle.look.current = Code.comma →
      Spans calculator middle.look.advance behind (number (.blank config) .check) →
      ItemAt place (.place place.advance middle.look.advance) behind

/-- The items from a place of a line up to its end. Any two that are no separators have a
separator between them. -/
inductive Listed : Scanner → List PrintItem → Prop
  | ends {place : Scanner} : place.look.current = Code.newline → Listed place []
  | semicolon {place : Scanner} {items : List PrintItem} :
      place.look.current = Code.semicolon → Listed place.look.advance items →
      Listed place (.semicolon :: items)
  | comma {place : Scanner} {items : List PrintItem} :
      place.look.current = Code.comma → Listed place.look.advance items →
      Listed place (.comma :: items)
  | item {place behind : Scanner} {item : PrintItem} {items : List PrintItem} :
      ItemAt config calculator place.look item behind →
      behind.look.current ∈ [Code.semicolon, Code.comma, Code.newline] →
      Listed behind.look items → Listed place (item :: items)

end

section
variable {config : Config} {calculator : BoundedStack Pending} {place behind other : Scanner}

theorem Spans.unique {α : Type} {check : Attempt (Desk NoConsole) α}
    (spans : Spans calculator place behind check) (others : Spans calculator place other check) :
    other = behind := by
  obtain ⟨value, reached, run, rfl⟩ := spans
  obtain ⟨another, arrived, again, rfl⟩ := others
  obtain ⟨-, rfl⟩ := Prod.mk.inj (again.symm.trans run)
  rfl

theorem ItemAt.unique {item another : PrintItem}
    (stands : ItemAt config calculator place item behind)
    (others : ItemAt config calculator place another other) : another = item ∧ other = behind := by
  cases stands with
  | value opens spans =>
      cases others with
      | value _ again => exact ⟨rfl, spans.unique again⟩
      | tab tab | place tab => exact absurd (by simp [tab]) opens
  | tab tab spans =>
      cases others with
      | value opens => exact absurd (by simp [tab]) opens
      | tab _ again => exact ⟨rfl, spans.unique again⟩
      | place place => exact absurd (tab.symm.trans place) (by decide)
  | place place rows comma columns =>
      cases others with
      | value opens => exact absurd (by simp [place]) opens
      | tab tab => exact absurd (tab.symm.trans place) (by decide)
      | place _ rowsAgain _ columnsAgain =>
          obtain rfl := rows.unique rowsAgain
          exact ⟨rfl, columns.unique columnsAgain⟩

theorem ItemAt.separates {item : PrintItem} (stands : ItemAt config calculator place item behind) :
    item.separates = false := by
  cases stands <;> rfl

theorem ItemAt.not_mem {item : PrintItem} (stands : ItemAt config calculator place item behind) :
    place.current ∉ [Code.newline, Code.semicolon, Code.comma] := by
  cases stands with
  | value opens =>
      simp only [List.mem_cons, List.not_mem_nil, or_false] at opens ⊢
      tauto
  | tab opens | place opens =>
      rw [opens]
      decide

/-- The items of a line are listed in one way. -/
theorem Listed.unique {items others : List PrintItem}
    (listed : Listed config calculator place items)
    (again : Listed config calculator place others) : others = items := by
  induction listed generalizing others with
  | ends ended =>
      cases again with
      | ends => rfl
      | semicolon separated | comma separated =>
          exact absurd (ended.symm.trans separated) (by decide)
      | item stands => exact absurd (by simp [ended]) stands.not_mem
  | semicolon separated _ inductionHypothesis =>
      cases again with
      | ends ended => exact absurd (ended.symm.trans separated) (by decide)
      | semicolon _ rest => rw [inductionHypothesis rest]
      | comma comma => exact absurd (comma.symm.trans separated) (by decide)
      | item stands => exact absurd (by simp [separated]) stands.not_mem
  | comma separated _ inductionHypothesis =>
      cases again with
      | ends ended => exact absurd (ended.symm.trans separated) (by decide)
      | semicolon semicolon => exact absurd (semicolon.symm.trans separated) (by decide)
      | comma _ rest => rw [inductionHypothesis rest]
      | item stands => exact absurd (by simp [separated]) stands.not_mem
  | item stands _ _ inductionHypothesis =>
      cases again with
      | ends ended => exact absurd (by simp [ended]) stands.not_mem
      | semicolon separated | comma separated => exact absurd (by simp [separated]) stands.not_mem
      | item others _ rest =>
          obtain ⟨rfl, rfl⟩ := stands.unique others
          rw [inductionHypothesis rest]

end

/-! ## What an item is read with -/

section
variable {H : Type} [Console H] (environment : Environment) (mode : Mode)

theorem printItem_at :
    (printItem environment mode Keyword.at.code : Attempt (Desk H) Unit) = (do
      Desk.advance
      let row ← number environment mode
      Desk.expect Code.comma
      let column ← number environment mode
      printing mode (Printing.moveTo row column)
      itemEnd) := by
  have pair : (numberPair environment mode : Attempt (Desk H) (Int × Int)) = (do
      let row ← number environment mode
      Desk.expect Code.comma
      let column ← number environment mode
      return (row, column)) := rfl
  rw [printItem, if_pos rfl, pair]
  simp only [bind_assoc, pure_bind]
  rfl

theorem printItem_tab :
    (printItem environment mode Keyword.tab.code : Attempt (Desk H) Unit) = (do
      Desk.advance
      let column ← number environment mode
      printing mode (Printing.tab environment.config.width column)
      itemEnd) := rfl

theorem printItem_value {code : Code} (noPlace : code ≠ Keyword.at.code)
    (noTab : code ≠ Keyword.tab.code) :
    (printItem environment mode code : Attempt (Desk H) Unit) = (do
      let value ← expression environment mode
      printing mode (Printing.value value)
      itemEnd) := by
  rw [printItem, if_neg noPlace, if_neg noTab]
  rfl

end

/-! ## The items of a line that checks -/

section
variable {config : Config} {calculator : BoundedStack Pending} {place : Scanner}

theorem itemEnd_apply {H : Type} (desk : Desk H) :
    itemEnd desk =
      if desk.scanner.look.current ∈ [Code.semicolon, Code.comma, Code.newline] then
        (.ok (), { desk with scanner := desk.scanner.look })
      else (.error .syntaxError, { desk with scanner := desk.scanner.look }) := by
  rw [itemEnd, Attempt.bind_apply, Desk.look_apply]
  dsimp only
  simp only [List.mem_cons, List.not_mem_nil, or_false]
  split
  next => rw [if_neg (by tauto)]; rfl
  next => rw [if_pos (by tauto)]; rfl

theorem eq_of_itemEnd {desk reached : Desk NoConsole} (run : itemEnd desk = (.ok (), reached)) :
    desk.scanner.look.current ∈ [Code.semicolon, Code.comma, Code.newline] ∧
      reached = { desk with scanner := desk.scanner.look } := by
  rw [itemEnd_apply] at run
  split at run
  next parted =>
    cases run
    exact ⟨parted, rfl⟩
  next => cases run

theorem exists_itemAt {reached : Desk NoConsole}
    (inside : place.current ∉ [Code.newline, Code.semicolon, Code.comma])
    (run : printItem (.blank config) .check place.current ⟨place, calculator, {}⟩ =
      (.ok (), reached)) :
    ∃ item behind, ItemAt config calculator place item behind ∧
      behind.look.current ∈ [Code.semicolon, Code.comma, Code.newline] ∧
      reached = ⟨behind.look, calculator, {}⟩ := by
  by_cases atPlace : place.current = Keyword.at.code
  · rw [atPlace, printItem_at, Attempt.bind_apply, Desk.advance_apply] at run
    obtain ⟨row, middle, first, run⟩ := Attempt.exists_of_bind_eq_ok run
    obtain ⟨rows, led⟩ := exists_spans_number first
    rw [led, Attempt.bind_apply, Desk.expect_apply] at run
    by_cases comma : middle.scanner.look.current = Code.comma
    · rw [if_pos comma] at run
      obtain ⟨column, last, second, run⟩ := Attempt.exists_of_bind_eq_ok run
      obtain ⟨columns, led⟩ := exists_spans_number second
      obtain ⟨parted, same⟩ := eq_of_itemEnd run
      rw [led] at parted same
      exact ⟨_, _, .place atPlace rows comma columns, parted, same⟩
    · rw [if_neg comma] at run
      cases run
  by_cases tab : place.current = Keyword.tab.code
  · rw [tab, printItem_tab, Attempt.bind_apply, Desk.advance_apply] at run
    obtain ⟨column, last, first, run⟩ := Attempt.exists_of_bind_eq_ok run
    obtain ⟨columns, led⟩ := exists_spans_number first
    obtain ⟨parted, same⟩ := eq_of_itemEnd run
    rw [led] at parted same
    exact ⟨_, _, .tab tab columns, parted, same⟩
  · rw [printItem_value _ _ atPlace tab] at run
    obtain ⟨value, last, first, run⟩ := Attempt.exists_of_bind_eq_ok run
    obtain ⟨values, led⟩ := exists_spans_expression first
    obtain ⟨parted, same⟩ := eq_of_itemEnd run
    rw [led] at parted same
    refine ⟨_, _, .value ?_ values, parted, same⟩
    simp only [List.mem_cons, List.not_mem_nil, or_false] at inside ⊢
    tauto

/-- A `PRINT` that checks is a list of items, each of which takes a turn. -/
theorem exists_listed {turns : Nat} {newline : Bool} {last : Desk NoConsole}
    (run : printItems (.blank config) .check turns newline ⟨place, calculator, {}⟩ =
      (.ok (), last)) :
    ∃ items, Listed config calculator place items ∧ items.length < turns := by
  induction turns generalizing place newline with
  | zero => cases run
  | succ turns inductionHypothesis =>
      rw [printItems, Attempt.bind_apply, Desk.look_apply] at run
      dsimp only at run
      split at run
      next ends => exact ⟨[], .ends ends, Nat.succ_pos _⟩
      next more =>
        split at run
        next separated =>
          obtain ⟨items, listed, fewer⟩ := inductionHypothesis run
          exact ⟨_, .semicolon separated listed, Nat.succ_lt_succ fewer⟩
        next =>
          split at run
          next separated =>
            obtain ⟨items, listed, fewer⟩ := inductionHypothesis run
            exact ⟨_, .comma separated listed, Nat.succ_lt_succ fewer⟩
          next =>
            obtain ⟨_, reached, first, run⟩ := Attempt.exists_of_bind_eq_ok run
            obtain ⟨item, behind, stands, parted, rfl⟩ := exists_itemAt (by
              simp only [List.mem_cons, List.not_mem_nil, or_false]
              tauto) first
            obtain ⟨items, listed, fewer⟩ := inductionHypothesis run
            exact ⟨_, .item stands parted listed, Nat.succ_lt_succ fewer⟩

end

/-! ## What is laid out -/

section
variable {H : Type} [Console H] (environment : Environment) (calculator : BoundedStack Pending)

/-- Evaluates an item and puts down its marks. -/
def PrintItem.lay : PrintItem → Attempt H Unit
  | semicolon => pure ()
  | comma => Statement.lay environment.config.width .comma
  | value start => do
      let value ← readAt start calculator (expression environment .execute)
      Statement.lay environment.config.width (.value value)
  | tab start => do
      let column ← readAt start calculator (number environment .execute)
      Statement.lay environment.config.width (.tab column)
  | place row column => do
      let row ← readAt row calculator (number environment .execute)
      let column ← readAt column calculator (number environment .execute)
      Statement.lay environment.config.width (.place row column)

/-- Lays items out from left to right. -/
def layAll : List PrintItem → Attempt H Unit
  | [] => pure ()
  | item :: rest => do
      item.lay environment calculator
      layAll rest

/-- Whether a line ends that was going to, or was not, before some items. -/
def endsLine (newline : Bool) (items : List PrintItem) : Bool :=
  items.getLast?.elim newline fun item => !item.separates

/-- Lays items out, and ends the line unless the last of them is a separator. -/
def layOut (newline : Bool) (items : List PrintItem) : Attempt H Unit := do
  layAll environment calculator items
  if endsLine newline items then
    lay environment.config.width .newline

theorem endsLine_cons (newline : Bool) (item : PrintItem) (items : List PrintItem) :
    endsLine newline (item :: items) = endsLine (!item.separates) items := by
  rw [endsLine, endsLine, List.getLast?_cons]
  cases items.getLast? <;> rfl

theorem layOut_nil (newline : Bool) :
    (layOut environment calculator newline [] : Attempt H Unit) =
      if newline then lay environment.config.width .newline else pure () := rfl

theorem layOut_cons (newline : Bool) (item : PrintItem) (items : List PrintItem) :
    (layOut environment calculator newline (item :: items) : Attempt H Unit) = (do
      item.lay environment calculator
      layOut environment calculator (!item.separates) items) := by
  rw [layOut, layOut, layAll, endsLine_cons, bind_assoc]

end

/-! ## What is carried out -/

section
variable {H : Type} [Console H] {config : Config} {environment : Environment}
  {calculator : BoundedStack Pending} {place behind : Scanner} {sound : H → Prop}

theorem sustains_readAt_expression (ruled : Console.Ruled config.width sound) :
    Sustains sound (readAt place calculator (expression environment .execute)) fun _ => True :=
  sustains_readAt (Expression.sustains_console environment .execute ruled.random)

theorem sustains_readAt_number (ruled : Console.Ruled config.width sound) :
    Sustains sound (readAt place calculator (number environment .execute)) fun _ => True := by
  refine sustains_readAt ?_
  refine (Expression.sustains_console environment .execute ruled.random).bind fun value _ => ?_
  cases value with
  | number value => exact Attempt.sustains_pure trivial
  | text codes => exact Attempt.sustains_throw _

/-- What is printed where an item ends is laid out, and the line is gone on with behind it. -/
theorem readAt_printing (ruled : Console.Ruled config.width sound)
    (parted : behind.look.current ∈ [Code.semicolon, Code.comma, Code.newline])
    (printed : Printed) (next : Unit → Attempt (Desk H) Unit) {console : H}
    (start : sound console) :
    readAt behind calculator
        (printing .execute (printed.print config.width) >>= fun _ => itemEnd >>= next) console =
      (lay config.width printed >>= fun _ => readAt behind.look calculator (next ())) console := by
  have onward : readAt behind calculator (itemEnd >>= next) =
      readAt behind.look calculator (next ()) := by
    funext console
    rw [readAt, Attempt.bind_apply, itemEnd_apply, if_pos parted]
    rfl
  rw [printing, readAt_consulting, onward, Attempt.bind_apply, Attempt.bind_apply,
    print_eq_lay ruled _ start]

omit [Console H] in
/-- Steps that agree where the console is sound agree after another step. -/
theorem bind_congr_of_sustains {α β : Type} {step : Attempt H α} {next other : α → Attempt H β}
    (sustains : Sustains sound step fun _ => True)
    (rest : ∀ value changed, sound changed → next value changed = other value changed)
    {console : H} (start : sound console) : (step >>= next) console = (step >>= other) console := by
  have reached := sustains console start
  rw [Attempt.bind_apply, Attempt.bind_apply]
  generalize step console = outcome at reached ⊢
  rcases outcome with ⟨fault | value, changed⟩
  · rfl
  · exact rest value changed reached.2

/-- An item is carried out as it is laid out, and the line is gone on with behind it. -/
theorem readAt_printItem (ruled : Console.Ruled config.width sound)
    (same : environment.config = config) {item : PrintItem}
    (stands : ItemAt config calculator place item behind)
    (parted : behind.look.current ∈ [Code.semicolon, Code.comma, Code.newline])
    (next : Unit → Attempt (Desk H) Unit) {console : H} (start : sound console) :
    readAt place calculator (printItem environment .execute place.current >>= next) console =
      (item.lay environment calculator >>= fun _ =>
        readAt behind.look calculator (next ())) console := by
  subst same
  cases stands with
  | value opens spans =>
      simp only [List.mem_cons, List.not_mem_nil, or_false, not_or] at opens
      rw [printItem_value _ _ opens.2.2.2.1 opens.2.2.2.2, PrintItem.lay]
      simp only [bind_assoc]
      rw [readAt_bind (leads_expression rfl spans)]
      exact bind_congr_of_sustains (sustains_readAt_expression ruled)
        (fun value _ start => readAt_printing ruled parted (.value value) next start) start
  | tab opens spans =>
      rw [opens, printItem_tab, PrintItem.lay]
      simp only [bind_assoc]
      rw [readAt_advance, readAt_bind (leads_number rfl spans)]
      exact bind_congr_of_sustains (sustains_readAt_number ruled)
        (fun column _ start => readAt_printing ruled parted (.tab column) next start) start
  | place opens rows comma columns =>
      rw [opens, printItem_at, PrintItem.lay]
      simp only [bind_assoc]
      rw [readAt_advance, readAt_bind (leads_number rfl rows)]
      refine bind_congr_of_sustains (sustains_readAt_number ruled) (fun row _ start => ?_) start
      rw [readAt_expect comma, readAt_bind (leads_number rfl columns)]
      exact bind_congr_of_sustains (sustains_readAt_number ruled)
        (fun column _ start => readAt_printing ruled parted (.place row column) next start) start

theorem sustains_lay_item (ruled : Console.Ruled config.width sound)
    (same : environment.config = config) (item : PrintItem) :
    Sustains sound (item.lay environment calculator) fun _ => True := by
  subst same
  cases item with
  | semicolon => exact Attempt.sustains_pure trivial
  | comma => exact sustains_lay ruled _
  | value place => exact (sustains_readAt_expression ruled).bind fun _ _ => sustains_lay ruled _
  | tab place => exact (sustains_readAt_number ruled).bind fun _ _ => sustains_lay ruled _
  | place row column =>
      exact (sustains_readAt_number ruled).bind fun _ _ =>
        (sustains_readAt_number ruled).bind fun _ _ => sustains_lay ruled _

/-- Listed items are carried out as they are laid out. -/
theorem readAt_printItems (ruled : Console.Ruled config.width sound)
    (same : environment.config = config) {items : List PrintItem}
    (listed : Listed config calculator place items) {turns : Nat} (enough : items.length < turns)
    (newline : Bool) {console : H} (start : sound console) :
    readAt place calculator (printItems environment .execute turns newline) console =
      layOut environment calculator newline items console := by
  induction listed generalizing turns newline console with
  | ends ended =>
      obtain ⟨turns, rfl⟩ : ∃ fewer, turns = fewer + 1 := ⟨turns - 1, by omega⟩
      rw [printItems, readAt_look, if_pos ended, layOut_nil]
      cases newline with
      | false => rfl
      | true => exact print_eq_lay (same ▸ ruled) .newline start
  | semicolon separated listed inductionHypothesis =>
      obtain ⟨turns, rfl⟩ : ∃ fewer, turns = fewer + 1 := ⟨turns - 1, by omega⟩
      rw [printItems, readAt_look, separated, if_neg (by decide), if_pos rfl, readAt_advance,
        layOut_cons]
      exact inductionHypothesis (Nat.lt_of_succ_lt_succ enough) false start
  | comma separated listed inductionHypothesis =>
      obtain ⟨turns, rfl⟩ : ∃ fewer, turns = fewer + 1 := ⟨turns - 1, by omega⟩
      rw [printItems, readAt_look, separated, if_neg (by decide), if_neg (by decide), if_pos rfl,
        readAt_advance, layOut_cons, printing, readAt_consulting]
      subst same
      have printed := print_eq_lay ruled .comma start
      rw [Printed.print] at printed
      rw [Attempt.bind_apply, printed, ← Attempt.bind_apply]
      exact bind_congr_of_sustains (sustains_lay ruled _)
        (fun _ _ start => inductionHypothesis (Nat.lt_of_succ_lt_succ enough) false start) start
  | @item place behind item items stands parted listed inductionHypothesis =>
      obtain ⟨turns, rfl⟩ : ∃ fewer, turns = fewer + 1 := ⟨turns - 1, by omega⟩
      have solid := stands.not_mem
      simp only [List.mem_cons, List.not_mem_nil, or_false, not_or] at solid
      rw [printItems, readAt_look, if_neg solid.1, if_neg solid.2.1, if_neg solid.2.2,
        readAt_printItem ruled same stands parted _ start, layOut_cons, stands.separates]
      exact bind_congr_of_sustains (sustains_lay_item ruled same item)
        (fun _ _ start => inductionHypothesis (Nat.lt_of_succ_lt_succ enough) true start) start

/-- A `PRINT` passes over its word and prints the items that follow. -/
theorem statement_print {mode : Mode} {desk : Desk H}
    (opens : (atWord desk.scanner).current = StatementWord.print.code) :
    statement environment mode desk =
      (do
        printItems environment mode ((atWord desk.scanner).advance.rest.length + 1) true
        return Outcome.done)
      ⟨(atWord desk.scanner).advance, desk.calculator.clear, desk.console⟩ := by
  rw [statement_apply, Attempt.bind_apply, lookForWord_apply]
  dsimp only
  rw [opens]
  rfl

end

/--
A `PRINT` that checks lays out exactly its items.

There is one way to list its items, on the line behind the word. On any console, as long as its
print position moves along lines of the width of the machine, and with whatever there is to be
read, it is carried out as the items are laid out, with the same fault, if there is one, and with
the same console. Whatever is laid out at one go leads to the column that it was meant for, or
its marks are cut short by a full display.
-/
theorem printed_as_listed {config : Config} {calculator : BoundedStack Pending} {place : Scanner}
    (opens : (atWord place).current = StatementWord.print.code)
    (checks : ∃ outcome, (statement (.blank config) .check
      (⟨place, calculator, {}⟩ : Desk NoConsole)).1 = .ok outcome) :
    ∃ items, (∀ others, Listed config calculator.clear (atWord place).advance others ↔
        others = items) ∧
      ∀ {H : Type} [Console H] {sound : H → Prop}, Console.Ruled config.width sound →
        ∀ console, sound console →
          (∀ environment : Environment, environment.config = config →
            readAt place calculator (statement environment .execute) console =
              (do
                layOut environment calculator.clear true items
                return Outcome.done) console) ∧
          ∀ printed : Printed, printed.Lands config.width console := by
  obtain ⟨outcome, checked⟩ := checks
  obtain ⟨reached, run⟩ : ∃ reached, statement (.blank config) .check
      (⟨place, calculator, {}⟩ : Desk NoConsole) = (.ok outcome, reached) :=
    ⟨_, Prod.ext checked rfl⟩
  rw [statement_print opens] at run
  obtain ⟨_, last, run, -⟩ := Attempt.exists_of_bind_eq_ok run
  obtain ⟨items, listed, enough⟩ := exists_listed run
  refine ⟨items, fun others => ⟨listed.unique, fun same => same ▸ listed⟩,
    fun ruled console start => ⟨fun environment same => ?_, fun printed =>
    lands ruled printed start⟩⟩
  have printed := readAt_printItems ruled same listed enough true start
  rw [Attempt.bind_apply, ← printed, readAt, readAt, statement_print opens, Attempt.bind_apply]
  generalize printItems environment .execute _ true
    (⟨(atWord place).advance, calculator.clear, console⟩ : Desk _) = outcome
  rcases outcome with ⟨fault | _, reached⟩ <;> rfl

/-- A machine with a small display. -/
def narrow : Config :=
  { width := 8, height := 2 }

/-- A `PRINT` with more to print than a small display has room for. -/
def crowded : Scanner :=
  .ofBytes (Line.ofText "10 PRINT \"AB\",-7;TAB -3;\"XYZW\"").body 0

/-- The last code finds the display full, and everything before it stays. -/
theorem printed_as_listed_crowded :
    (atWord crowded).current = StatementWord.print.code ∧
      ∃ items, Listed narrow (.empty 8) (atWord crowded).advance items ∧
        readAt crowded (.empty 8) (statement (.blank narrow) .execute)
            (Recorder.start narrow [] (MemorySlots.empty 2)) =
          (do
            layOut (.blank narrow) (.empty 8) true items
            return Outcome.done) (Recorder.start narrow [] (MemorySlots.empty 2)) ∧
        (readAt crowded (.empty 8) (statement (.blank narrow) .execute)
          (Recorder.start narrow [] (MemorySlots.empty 2))).1 = .error .displayFull ∧
        (readAt crowded (.empty 8) (statement (.blank narrow) .execute)
          (Recorder.start narrow [] (MemorySlots.empty 2))).2.text = "AB  -7\n     XYZ" := by
  have opens : (atWord crowded).current = StatementWord.print.code := by decide +kernel
  have checks : (statement (.blank narrow) .check
      (⟨crowded, .empty 8, {}⟩ : Desk NoConsole)).1 = .ok .done := by decide +kernel
  obtain ⟨items, listed, laid⟩ := printed_as_listed opens ⟨_, checks⟩
  obtain ⟨carried, -⟩ := laid (Recorder.ruled narrow.width)
    (Recorder.start narrow [] (MemorySlots.empty 2)) ⟨Screen.placed_blank (by decide), rfl⟩
  exact ⟨opens, items, (listed items).mpr rfl, carried _ rfl, by decide +kernel, by decide +kernel⟩

end Statement
end HomeBasic
