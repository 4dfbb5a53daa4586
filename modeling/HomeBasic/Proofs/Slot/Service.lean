import HomeBasic.Proofs.Slot.Proxy

/-!
# What a controller makes of any bytes

A controller cannot trust what comes in: a block may hold bytes that look like requests, the
stream may end within a request, and the client may send what is no request at all. All the
same the bytes fall apart in one way only. In front stand the frames of whole calls, and
behind them a remnant that begins with no frame: nothing, a torn frame, or two bytes of which
the first is not a letter that the controller knows.

Main statements: every input is cut into frames and a remnant in one way (`exists_cut`,
`Cut.isPrefix`); a controller of slots in memory answers the frames in order, keeps the blocks
that come with an accepted one, and ends as the remnant says (`serve_every_input`).
-/

namespace HomeBasic

namespace SlotCall

/-- The bytes that ask for a call. -/
def frame : SlotCall → List Code
  | .read slot => Link.loadFrame slot.toNat
  | .persist slot block => Link.saveFrame slot.toNat block

/-- The bytes that answer a call on slots in memory. -/
def answer (blockSize : Nat) (slots : MemorySlots) : SlotCall → List Code
  | .read slot =>
      match slots.blocks[slot.toNat]? with
      | some (some block) =>
          if block.length = blockSize then Link.granted :: block else [Link.refused]
      | _ => [Link.refused]
  | .persist slot _ =>
      if slot.toNat < slots.blocks.length then [Link.granted] else [Link.refused]

/-- Slots in memory after a call: only a block for a slot that there is makes a change. -/
def updated (slots : MemorySlots) : SlotCall → MemorySlots
  | .read _ => slots
  | .persist slot block =>
      if slot.toNat < slots.blocks.length then ⟨slots.blocks.set slot.toNat (some block)⟩
      else slots

/-- The bytes that answer one call after another. -/
def answers (blockSize : Nat) : List SlotCall → MemorySlots → List Code
  | [], _ => []
  | call :: calls, slots =>
      call.answer blockSize slots ++ answers blockSize calls (call.updated slots)

end SlotCall

namespace Controller

open SlotCall

/-! ## Frames and what is left of them -/

/-- The first of two bytes is no letter that opens a request. -/
def OpensUnknown : List Code → Prop
  | letter :: _ :: _ => letter ≠ Link.loadLetter ∧ letter ≠ Link.saveLetter
  | _ => False

instance (rest : List Code) : Decidable (OpensUnknown rest) :=
  match rest with
  | [] | [_] => instDecidableFalse
  | letter :: _ :: _ =>
      inferInstanceAs (Decidable (letter ≠ Link.loadLetter ∧ letter ≠ Link.saveLetter))

/-- Bytes that do not begin with the frame of a call whose block has the right size. -/
def Frameless (blockSize : Nat) (rest : List Code) : Prop :=
  ∀ call : SlotCall, ¬call.Misfit blockSize → ¬call.frame <+: rest

/-- An input is cut into the frames of calls and a remnant that begins with no frame. -/
structure Cut (blockSize : Nat) (input : List Code) (calls : List SlotCall)
    (remnant : List Code) : Prop where
  fits : ∀ call ∈ calls, ¬call.Misfit blockSize
  input_eq : input = calls.flatMap frame ++ remnant
  frameless : Frameless blockSize remnant

variable {blockSize : Nat} {input rest : List Code} {calls : List SlotCall}

theorem frame_ne_nil (call : SlotCall) : call.frame ≠ [] := by
  cases call <;> simp [frame, Link.loadFrame, Link.saveFrame]

theorem frame_read (slot : Code) : (SlotCall.read slot).frame = [Link.loadLetter, slot] := by
  simp [frame, Link.loadFrame]

theorem frame_persist (slot : Code) (block : List Code) :
    (SlotCall.persist slot block).frame = Link.saveLetter :: slot :: block := by
  simp [frame, Link.saveFrame]

/-- Of two frames at the front of the same bytes neither goes on behind the other. -/
theorem eq_of_frame_append {call other : SlotCall} {later : List Code}
    (fit : ¬call.Misfit blockSize) (otherFit : ¬other.Misfit blockSize)
    (same : call.frame ++ rest = other.frame ++ later) : call = other ∧ rest = later := by
  have differ : Link.loadLetter ≠ Link.saveLetter := by decide
  cases call with
  | read slot =>
      cases other with
      | read another => simpa [frame_read] using same
      | persist another block => simp [frame_read, frame_persist, differ] at same
  | persist slot block =>
      cases other with
      | read another => simp [frame_read, frame_persist, differ.symm] at same
      | persist another brought =>
          simp only [frame_persist, List.cons_append, List.cons.injEq, true_and] at same
          -- Both blocks have the one size, so the bytes part at the same place.
          have sizes : block.length = brought.length :=
            (Classical.not_not.mp fit).trans (Classical.not_not.mp otherFit).symm
          obtain ⟨rfl, blocks⟩ := same
          obtain ⟨rfl, rest⟩ := List.append_inj blocks sizes
          exact ⟨rfl, rest⟩

/-- Whatever frames stand at the front of an input, they are the first of its cut. -/
theorem Cut.isPrefix (cut : Cut blockSize input calls rest) {others : List SlotCall}
    (fits : ∀ call ∈ others, ¬call.Misfit blockSize) (front : others.flatMap frame <+: input) :
    others <+: calls := by
  induction others generalizing input calls with
  | nil => exact List.nil_prefix
  | cons other others ih =>
      obtain ⟨later, rfl⟩ := front
      have here := cut.input_eq
      rw [List.flatMap_cons, List.append_assoc] at here
      cases calls with
      | nil => exact (cut.frameless other (fits other (by simp)) ⟨_, here⟩).elim
      | cons call calls =>
          rw [List.flatMap_cons, List.append_assoc] at here
          obtain ⟨rfl, behind⟩ := eq_of_frame_append (fits other (by simp))
            (cut.fits call (by simp)) here
          have shorter : Cut blockSize (others.flatMap frame ++ later) calls rest :=
            ⟨fun call member => cut.fits call (by simp [member]), behind, cut.frameless⟩
          exact List.cons_prefix_cons.mpr
            ⟨rfl, ih shorter (fun call member => fits call (by simp [member])) ⟨later, rfl⟩⟩

/-- Every input has a cut. -/
theorem exists_cut (blockSize : Nat) (input : List Code) :
    ∃ calls rest, Cut blockSize input calls rest := by
  induction size : input.length using Nat.strongRecOn generalizing input with
  | ind size ih =>
      by_cases frameless : Frameless blockSize input
      · exact ⟨[], input, by simp, rfl, frameless⟩
      · simp only [Frameless, Classical.not_forall, Classical.not_not] at frameless
        obtain ⟨call, fit, later, rfl⟩ := frameless
        have some := List.length_pos_iff.mpr (frame_ne_nil call)
        obtain ⟨calls, rest, cut⟩ := ih later.length (by simp at size; omega) later rfl
        refine ⟨call :: calls, rest, ?_, ?_, cut.frameless⟩
        · simpa [fit] using cut.fits
        · rw [List.flatMap_cons, List.append_assoc, ← cut.input_eq]

/-! ## One frame, and the remnant -/

section
variable {S : Type} [SlotStore S] {slots : S}

/-- What a store answers to a call over a link. -/
def reply (blockSize : Nat) (call : SlotCall) (slots : S) : List Code × S :=
  match call with
  | .read slot => answerLoad blockSize slot.toNat slots
  | .persist slot block => answerSave slot.toNat block slots

/-- A frame is answered whatever stands behind it. -/
theorem respond_frame {call : SlotCall} (fit : ¬call.Misfit blockSize) (slots : S)
    (rest : List Code) :
    respond blockSize slots (call.frame ++ rest) =
      .answered (reply blockSize call slots).1 rest (reply blockSize call slots).2 := by
  have whole : respond blockSize slots call.frame =
      .answered (reply blockSize call slots).1 [] (reply blockSize call slots).2 := by
    cases call with
    | read slot => exact respond_loadFrame blockSize slot slots
    | persist slot block => exact respond_saveFrame blockSize slot slots (Classical.not_not.mp fit)
  rw [respond_append rest (by simp [whole]), whole]
  rfl

theorem respond_unknown (unknown : OpensUnknown rest) :
    respond blockSize slots rest = .unknown [Link.refused] := by
  match rest, unknown with
  | letter :: slot :: later, ⟨load, save⟩ => simp [respond, load, save]

/-- A remnant that is not unknown waits for its other bytes. -/
theorem respond_torn (frameless : Frameless blockSize rest) (known : ¬OpensUnknown rest) :
    respond blockSize slots rest = .incomplete := by
  match rest with
  | [] | [_] => rfl
  | letter :: slot :: later =>
      have load : letter ≠ Link.loadLetter := by
        rintro rfl
        exact frameless (.read slot) id ⟨later, by simp [frame_read]⟩
      have save : letter = Link.saveLetter := by
        simpa [OpensUnknown, load] using known
      subst save
      have short : ¬blockSize ≤ later.length := fun enough =>
        frameless (.persist slot (later.take blockSize)) (by simp [Misfit, enough])
          ⟨later.drop blockSize, by simp [frame_persist]⟩
      simp [respond, load, short]

end

theorem reply_eq (call : SlotCall) (slots : MemorySlots) :
    reply blockSize call slots = (call.answer blockSize slots, call.updated slots) := by
  cases call with
  | read slot =>
      simp only [reply, answerLoad, SlotStore.read, MemorySlots.read, answer, updated]
      rcases slots.blocks[slot.toNat]? with _ | _ | block
      · rfl
      · rfl
      · simp only
        split <;> rfl
  | persist slot block =>
      simp only [reply, answerSave, SlotStore.persist, MemorySlots.persist, answer, updated]
      by_cases present : slot.toNat < slots.blocks.length
      · simp [present]
      · simp [present]

/-! ## All that comes in -/

/-- The frames at the front are answered one after another; what is behind them is left. -/
theorem settle_frames (fits : ∀ call ∈ calls, ¬call.Misfit blockSize) (sent : List Code)
    (slots : MemorySlots) :
    settle blockSize ⟨sent, calls.flatMap frame ++ rest, slots, false⟩ =
      settle blockSize
        ⟨sent ++ answers blockSize calls slots, rest, calls.foldl updated slots, false⟩ := by
  induction calls generalizing sent slots with
  | nil => simp [answers]
  | cons call calls ih =>
      have response := respond_frame (fits call (by simp)) slots (calls.flatMap frame ++ rest)
      rw [List.flatMap_cons, List.append_assoc, settle_answered response, reply_eq,
        ih fun call member => fits call (by simp [member])]
      simp [answers]

/-- How a service stands that has come to a remnant. -/
theorem settle_remnant (frameless : Frameless blockSize rest) (sent : List Code)
    (slots : MemorySlots) :
    settle blockSize ⟨sent, rest, slots, false⟩ =
      ⟨sent ++ if OpensUnknown rest then [Link.refused] else [], rest, slots,
        decide (OpensUnknown rest)⟩ := by
  by_cases unknown : OpensUnknown rest
  · simp [settle_unknown (respond_unknown unknown), unknown]
  · simp [settle_incomplete (respond_torn frameless unknown), unknown]

/-- A service takes every input. It answers all whole frames that stand at the front, in
order, and keeps the blocks of those that are accepted; what is behind them changes no slot.
If nothing is, the service ends well; two bytes with a letter that it does not know are
refused once and end it; anything else is a torn frame, which is not answered. -/
theorem serve_every_input (blockSize : Nat) (input : List Code) (slots : MemorySlots) :
    ∃ (calls : List SlotCall) (rest : List Code),
      (∀ call ∈ calls, ¬call.Misfit blockSize) ∧
      input = calls.flatMap frame ++ rest ∧
      (∀ others : List SlotCall, (∀ call ∈ others, ¬call.Misfit blockSize) →
        others.flatMap frame <+: input → others <+: calls) ∧
      (serve blockSize input slots).2.slots = calls.foldl updated slots ∧
      (serve blockSize input slots).2.sent =
        answers blockSize calls slots ++ (if OpensUnknown rest then [Link.refused] else []) ∧
      (serve blockSize input slots).1 =
        (if rest = [] then .ok ()
        else if OpensUnknown rest then .error .unknownRequest
        else .error .shortRead) ∧
      ((serve blockSize input slots).1 = .ok () ↔
        ∃ whole : List SlotCall, (∀ call ∈ whole, ¬call.Misfit blockSize) ∧
          input = whole.flatMap frame) := by
  obtain ⟨calls, rest, cut⟩ := exists_cut blockSize input
  have session : (serve blockSize input slots).2 =
      ⟨answers blockSize calls slots ++ (if OpensUnknown rest then [Link.refused] else []),
        rest, calls.foldl updated slots, decide (OpensUnknown rest)⟩ := by
    have fed : (serve blockSize input slots).2 =
        settle blockSize ⟨[], [] ++ input, slots, false⟩ := rfl
    rw [fed, List.nil_append, cut.input_eq, settle_frames cut.fits, List.nil_append,
      settle_remnant cut.frameless]
  have result : (serve blockSize input slots).1 =
      (if rest = [] then .ok ()
      else if OpensUnknown rest then .error .unknownRequest
      else .error .shortRead) := by
    have ended : (serve blockSize input slots).1 = outcome (serve blockSize input slots).2 := rfl
    rw [ended, session, outcome]
    by_cases none : rest = []
    · simp [none, OpensUnknown]
    · simp [none]
  refine ⟨calls, rest, cut.fits, cut.input_eq, fun others fits front => cut.isPrefix fits front,
    by rw [session], by rw [session], result, ?_⟩
  have endsWell : (serve blockSize input slots).1 = .ok () ↔ rest = [] := by
    rw [result]
    split
    · simp [*]
    · split <;> simp [*]
  rw [endsWell]
  constructor
  · intro none
    exact ⟨calls, cut.fits, by rw [cut.input_eq, none, List.append_nil]⟩
  · rintro ⟨whole, fits, all⟩
    -- The frames that are all of the input are the first of its cut, so nothing is behind them.
    obtain ⟨more, rfl⟩ := cut.isPrefix fits ⟨[], by rw [all, List.append_nil]⟩
    have behind := all.symm.trans cut.input_eq
    rw [List.flatMap_append, List.append_assoc] at behind
    exact (List.append_eq_nil_iff.mp (List.self_eq_append_right.mp behind)).2

/-- A block that looks like requests is kept as it is; of a second one only a part comes. -/
example :
    (serve 2 [0x53, 1, 0x4C, 1, 0x4C, 1, 0x53, 1, 9] (MemorySlots.empty 3)).2.sent =
        [Link.granted, Link.granted, 0x4C, 1] ∧
      (serve 2 [0x53, 1, 0x4C, 1, 0x4C, 1, 0x53, 1, 9] (MemorySlots.empty 3)).1 =
        .error .shortRead :=
  ⟨rfl, rfl⟩

end Controller
end HomeBasic
