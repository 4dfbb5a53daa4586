import HomeBasic.Proofs.Console.Bounds

/-!
# The page of a display

The cells of a page stand one behind the other, row by row, and the print position is a place
among them (`place`), or the place behind the last one once the page is full. Printing fills the
cell at its place and goes on to the next place; nothing else writes into a cell but emptying the
whole page.

Main statement: this holds after any requests that a page was ever asked for (`page_bounded`), so
that it takes as many codes as it has cells, and a cell keeps its code (`getElem?_after`).
-/

namespace HomeBasic
namespace Screen

/-! ## Requests -/

/-- What a page may be asked for. -/
inductive Request
  | print (code : Code)
  | newline
  | moveTo (row column : Nat)
  | clear
  deriving DecidableEq, Repr, Inhabited

/-- The page as it was asked for, none if the answer is that the page is full. -/
def answer? (screen : Screen) : Request → Option Screen
  | .print code => screen.print? code
  | .newline => screen.newline?
  | .moveTo row column => screen.moveTo? row column
  | .clear => some screen.clear

/-- A page after a request, and whether it answered that it is full. -/
def ask (screen : Screen) (request : Request) : Bool × Screen :=
  match screen.answer? request with
  | some changed => (false, changed)
  | none => (true, screen)

/-- A page after requests. -/
def after : Screen → List Request → Screen
  | screen, [] => screen
  | screen, request :: rest => (screen.ask request).2.after rest

/-- Whether a page answers to each request that it is full. -/
def answers : Screen → List Request → List Bool
  | _, [] => []
  | screen, request :: rest => (screen.ask request).1 :: (screen.ask request).2.answers rest

/-- The place of the print position among the cells. -/
def place (screen : Screen) : Nat :=
  screen.row * screen.width + screen.column

/-- Requests that neither empty a page nor print over a place of it. -/
def Spares (place : Nat) : Screen → List Request → Prop
  | _, [] => True
  | screen, request :: rest =>
      request ≠ .clear ∧ (∀ code, request = .print code → screen.place ≠ place) ∧
        Spares place (screen.ask request).2 rest

/-- A page of a size, with its print position at a cell or behind the last one. -/
structure Paged (width height : Nat) (screen : Screen) : Prop where
  width_eq : screen.width = width
  height_eq : screen.height = height
  cells : screen.cells.size = width * height
  column : screen.column < width
  row : screen.row ≤ height
  atEnd : screen.row = height → screen.column = 0

/-! ## What each request comes to -/

variable {width height : Nat} {screen changed : Screen} {code : Code}

theorem ask_of_some (request : Request) (answer : screen.answer? request = some changed) :
    screen.ask request = (false, changed) := by
  rw [ask, answer]

theorem ask_of_none (request : Request) (answer : screen.answer? request = none) :
    screen.ask request = (true, screen) := by
  rw [ask, answer]

theorem newline?_eq_some (printed : screen.newline? = some changed) :
    screen.row < screen.height ∧ changed = { screen with row := screen.row + 1, column := 0 } := by
  unfold newline? isFull at printed
  split at printed
  next => cases printed
  next room =>
    cases printed
    exact ⟨by simpa using room, rfl⟩

theorem moveTo?_eq_some {row column : Nat} (moved : screen.moveTo? row column = some changed) :
    (row < screen.height ∧ column < screen.width) ∧ changed = { screen with row, column } := by
  unfold moveTo? at moved
  split at moved
  next inside =>
    cases moved
    exact ⟨inside, rfl⟩
  next => cases moved

/-- Printing fills the cell at its place and goes on to the place behind it. -/
theorem print?_eq_some (column : screen.column < screen.width)
    (printed : screen.print? code = some changed) :
    changed = { screen with
      cells := screen.cells.setIfInBounds screen.place code
      row := (screen.place + 1) / screen.width
      column := (screen.place + 1) % screen.width } := by
  have wide : 0 < screen.width := Nat.lt_of_le_of_lt (Nat.zero_le _) column
  unfold print? at printed
  split at printed
  next => cases printed
  next =>
    dsimp only at printed
    split at printed
    next last =>
      have next : screen.place + 1 = screen.width * (screen.row + 1) := by
        rw [place, Nat.add_assoc, last, Nat.mul_comm, Nat.mul_succ]
      cases printed
      rw [next, Nat.mul_div_cancel_left _ wide, Nat.mul_mod_right]
      rfl
    next inside =>
      have next : screen.place + 1 = screen.width * screen.row + (screen.column + 1) := by
        rw [place, Nat.add_assoc, Nat.mul_comm]
      have less : screen.column + 1 < screen.width := by omega
      cases printed
      rw [next, Nat.mul_add_div wide, Nat.div_eq_of_lt less, Nat.mul_add_mod, Nat.mod_eq_of_lt less]
      rfl

/-! ## Pages -/

theorem paged_blank (wide : 1 ≤ width) : (blank width height).Paged width height :=
  ⟨rfl, rfl, Array.size_replicate, wide, Nat.zero_le _, fun _ => rfl⟩

namespace Paged

variable (paged : screen.Paged width height)
include paged

theorem placed : screen.Placed where
  column := paged.width_eq ▸ paged.column
  cells := by rw [paged.cells, paged.width_eq, paged.height_eq]

/-- The place of the print position is a cell, unless no row is left. -/
theorem place_lt_iff : screen.place < screen.cells.size ↔ screen.row < height := by
  constructor
  · intro inside
    refine Nat.lt_of_le_of_ne paged.row fun last => ?_
    rw [place, paged.cells, last, paged.width_eq, Nat.mul_comm] at inside
    exact absurd (Nat.lt_of_le_of_lt (Nat.le_add_right _ _) inside) (Nat.lt_irrefl _)
  · intro room
    exact paged.placed.cell_lt (paged.height_eq ▸ room)

theorem clear : screen.clear.Paged width height := by
  have wide : 1 ≤ width := Nat.lt_of_le_of_lt (Nat.zero_le _) paged.column
  rw [Screen.clear, paged.width_eq, paged.height_eq]
  exact paged_blank wide

/-- A page takes a code at its place if there is a row left. -/
theorem ask_print (code : Code) (room : screen.row < height) :
    screen.ask (.print code) = (false,
      { screen with
        cells := screen.cells.setIfInBounds screen.place code
        row := (screen.place + 1) / width
        column := (screen.place + 1) % width }) := by
  rcases answer : screen.print? code with _ | changed
  · rw [print?_eq_none_iff, paged.height_eq] at answer
    exact absurd room (Nat.not_lt.mpr answer)
  · rw [ask_of_some (.print code) answer, print?_eq_some paged.placed.column answer]
    simp only [paged.width_eq]

theorem ask_print_of_full (code : Code) (full : screen.row = height) :
    screen.ask (.print code) = (true, screen) := by
  have refused : screen.print? code = none :=
    print?_eq_none_iff.mpr (Nat.le_of_eq (paged.height_eq.trans full.symm))
  exact ask_of_none (.print code) refused

theorem full_iff (code : Code) : (screen.ask (.print code)).1 = true ↔ screen.row = height := by
  constructor
  · intro refused
    rcases Nat.lt_or_eq_of_le paged.row with room | full
    · rw [paged.ask_print code room] at refused
      cases refused
    · exact full
  · intro full
    rw [paged.ask_print_of_full code full]

/-- Whatever a page is asked for, it is a page of its size afterwards. -/
theorem ask (request : Request) : (screen.ask request).2.Paged width height := by
  cases request with
  | print code =>
      rcases Nat.lt_or_eq_of_le paged.row with room | full
      · have wide : 0 < width := Nat.lt_of_le_of_lt (Nat.zero_le _) paged.column
        have inside : screen.place < width * height :=
          paged.cells ▸ paged.place_lt_iff.mpr room
        rw [paged.ask_print code room]
        refine ⟨paged.width_eq, paged.height_eq, ?_, Nat.mod_lt _ wide, ?_, fun last => ?_⟩
        · exact (Array.size_setIfInBounds).trans paged.cells
        · exact Nat.le_trans (Nat.div_le_div_right inside)
            (Nat.le_of_eq (Nat.mul_div_cancel_left _ wide))
        · -- The last row is only left behind at the place behind all cells.
          have last : (screen.place + 1) / width = height := last
          have split := Nat.div_add_mod (screen.place + 1) width
          rw [last] at split
          change (screen.place + 1) % width = 0
          omega
      · rw [paged.ask_print_of_full code full]
        exact paged
  | newline =>
      rcases answer : screen.newline? with _ | changed
      · rw [ask_of_none .newline answer]
        exact paged
      · obtain ⟨room, rfl⟩ := newline?_eq_some answer
        have wide : 0 < width := Nat.lt_of_le_of_lt (Nat.zero_le _) paged.column
        rw [ask_of_some .newline answer]
        exact ⟨paged.width_eq, paged.height_eq, paged.cells, wide, paged.height_eq ▸ room,
          fun _ => rfl⟩
  | moveTo row column =>
      rcases answer : screen.moveTo? row column with _ | changed
      · rw [ask_of_none (.moveTo row column) answer]
        exact paged
      · obtain ⟨⟨room, inside⟩, rfl⟩ := moveTo?_eq_some answer
        rw [paged.height_eq] at room
        rw [ask_of_some (.moveTo row column) answer]
        exact ⟨paged.width_eq, paged.height_eq, paged.cells, paged.width_eq ▸ inside,
          Nat.le_of_lt room, fun last => absurd last (Nat.ne_of_lt room)⟩
  | clear => exact paged.clear

theorem after (requests : List Request) : (screen.after requests).Paged width height := by
  induction requests generalizing screen with
  | nil => exact paged
  | cons request rest inductionHypothesis => exact inductionHypothesis (paged.ask request)

/-- A page is full once all the cells behind the print position are printed. -/
theorem answers_print (codes : List Code) :
    screen.answers (codes.map .print) =
      (List.range codes.length).map fun count =>
        decide (width * height ≤ screen.place + count) := by
  induction codes generalizing screen with
  | nil => rfl
  | cons code rest inductionHypothesis =>
      have others := inductionHypothesis (paged.ask (.print code))
      rw [List.map_cons, answers, others, List.length_cons, List.range_succ_eq_map, List.map_cons,
        List.map_map]
      rcases Nat.lt_or_eq_of_le paged.row with room | full
      · have inside : screen.place < width * height :=
          paged.cells ▸ paged.place_lt_iff.mpr room
        have next : (screen.ask (.print code)).2.place = screen.place + 1 := by
          rw [paged.ask_print code room, place]
          dsimp only
          rw [paged.width_eq, Nat.mul_comm]
          exact Nat.div_add_mod _ _
        have taken : (screen.ask (.print code)).1 = decide (width * height ≤ screen.place + 0) := by
          rw [paged.ask_print code room]
          exact (decide_eq_false (Nat.not_le.mpr inside)).symm
        rw [next, taken]
        congr 2
        funext count
        simp only [Function.comp_apply, Nat.succ_eq_add_one, Nat.add_assoc, Nat.add_comm 1 count]
      · have behind : width * height ≤ screen.place := by
          rw [place, full, paged.width_eq, Nat.mul_comm]
          exact Nat.le_add_right _ _
        have refused (count : Nat) : decide (width * height ≤ screen.place + count) = true :=
          decide_eq_true (Nat.le_trans behind (Nat.le_add_right _ _))
        rw [paged.ask_print_of_full code full]
        simp only [Function.comp_def, refused]

/-- A request that does not empty a page leaves the cells alone, but for the one it prints into. -/
theorem getElem?_ask {request : Request} {place : Nat} (noClear : request ≠ .clear)
    (elsewhere : ∀ code, request = .print code → screen.place ≠ place) :
    (screen.ask request).2.cells[place]? = screen.cells[place]? := by
  cases request with
  | print code =>
      rcases Nat.lt_or_eq_of_le paged.row with room | full
      · rw [paged.ask_print code room]
        exact Array.getElem?_setIfInBounds_ne (elsewhere code rfl)
      · rw [paged.ask_print_of_full code full]
  | newline =>
      rcases answer : screen.newline? with _ | changed
      · rw [ask_of_none .newline answer]
      · obtain ⟨-, rfl⟩ := newline?_eq_some answer
        rw [ask_of_some .newline answer]
  | moveTo row column =>
      rcases answer : screen.moveTo? row column with _ | changed
      · rw [ask_of_none (.moveTo row column) answer]
      · obtain ⟨-, rfl⟩ := moveTo?_eq_some answer
        rw [ask_of_some (.moveTo row column) answer]
  | clear => exact absurd rfl noClear

/-- A cell keeps its code until it is printed over or the page is emptied. -/
theorem getElem?_after {requests : List Request} {place : Nat}
    (spares : Spares place screen requests) :
    (screen.after requests).cells[place]? = screen.cells[place]? := by
  induction requests generalizing screen with
  | nil => rfl
  | cons request rest inductionHypothesis =>
      obtain ⟨noClear, elsewhere, others⟩ := spares
      rw [Screen.after, inductionHypothesis (paged.ask request) others,
        paged.getElem?_ask noClear elsewhere]

end Paged

/-- Whatever a page of at least one column was asked for, its print position is at a cell or behind
the last one. It refuses without a change, and a code exactly if no row is left; otherwise it puts
the code into the cell at its place and goes on to the next place, row by row. Emptied it takes as
many codes as it has cells, and a cell keeps what was printed into it. -/
theorem page_bounded (wide : 1 ≤ width) (requests : List Request) :
    let screen := (blank width height).after requests
    screen.Paged width height ∧
      (∀ request, (screen.ask request).1 = true → (screen.ask request).2 = screen) ∧
      (∀ code, (screen.ask (.print code)).1 = true ↔ screen.row = height) ∧
      (∀ code, screen.row ≠ height →
        screen.place < screen.cells.size ∧
          (screen.ask (.print code)).2 = { screen with
            cells := screen.cells.setIfInBounds screen.place code
            row := (screen.place + 1) / width
            column := (screen.place + 1) % width }) ∧
      (∀ codes : List Code, (screen.ask .clear).2.answers (codes.map .print) =
        (List.range codes.length).map fun count => decide (width * height ≤ count)) ∧
      ∀ code later, screen.row ≠ height →
        Spares screen.place (screen.ask (.print code)).2 later →
          ((screen.ask (.print code)).2.after later).cells[screen.place]? = some code := by
  intro screen
  have paged : screen.Paged width height := (paged_blank wide).after requests
  have room (short : screen.row ≠ height) : screen.row < height :=
    Nat.lt_of_le_of_ne paged.row short
  refine ⟨paged, fun request refused => ?_, paged.full_iff, fun code short => ⟨?_, ?_⟩,
    fun codes => ?_, fun code later short spares => ?_⟩
  · unfold Screen.ask at refused ⊢
    cases answer : screen.answer? request with
    | none => rfl
    | some changed =>
        rw [answer] at refused
        cases refused
  · exact paged.place_lt_iff.mpr (room short)
  · rw [paged.ask_print code (room short)]
  · have first : screen.clear.place = 0 := Nat.zero_mul _
    have emptied := paged.clear.answers_print codes
    simp only [first, Nat.zero_add] at emptied
    exact emptied
  · rw [(paged.ask (.print code)).getElem?_after spares, paged.ask_print code (room short)]
    exact Array.getElem?_setIfInBounds_self_of_lt (paged.place_lt_iff.mpr (room short))

/-- A code at the end of a row is kept while two more are printed on the next ones. -/
theorem page_bounded_wrapped :
    1 ≤ 3 ∧
      let screen := (blank 3 2).after [.moveTo 0 2]
      let wrapped := (screen.ask (.print 0x21)).2
      wrapped.row = 1 ∧ wrapped.column = 0 ∧
        (wrapped.after [.print 0x22, .moveTo 1 2, .print 0x23, .newline]).cells[2]? =
          some 0x21 := by
  have bounded := @page_bounded 3 2 (by decide) [.moveTo 0 2]
  obtain ⟨-, -, -, printed, -, kept⟩ := bounded
  have short : ((blank 3 2).after [.moveTo 0 2]).row ≠ 2 := by decide
  refine ⟨by decide, ?_, ?_, kept 0x21 _ short ?_⟩
  · rw [(printed 0x21 short).2]
    decide
  · rw [(printed 0x21 short).2]
    decide
  · refine ⟨by decide, fun code _ => by decide, by decide, fun code _ => by decide,
      by decide, fun code _ => by decide, by decide, fun code _ => by decide, trivial⟩

end Screen
end HomeBasic
