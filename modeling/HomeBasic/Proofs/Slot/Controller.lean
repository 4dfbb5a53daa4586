import HomeBasic.Slot.Controller

/-!
# How a controller takes bytes in

The controller reads an unframed stream, which may come in pieces of any size. What it
has answered, and what it still holds, depends only on the bytes and not on how they
were cut: `respond` looks at the front of the pending bytes only, and `work` goes on
until the front is no whole request.

Main statements: bytes may come in two pieces or in one (`feed_append`); a part of a
request is only kept (`feed_part`), and a whole request is answered and used up
(`feed_request`).
-/

namespace HomeBasic
namespace Controller

variable {S : Type} [SlotStore S] {blockSize : Nat}

/-! ## One request -/

/-- Bytes that come after a whole request are left with the rest. -/
def Response.followedBy (later : List Code) : Response S → Response S
  | .incomplete => .incomplete
  | .answered answer rest slots => .answered answer (rest ++ later) slots
  | .unknown answer => .unknown answer

theorem respond_append {slots : S} {pending : List Code} (later : List Code)
    (complete : respond blockSize slots pending ≠ .incomplete) :
    respond blockSize slots (pending ++ later) =
      (respond blockSize slots pending).followedBy later := by
  match pending with
  | [] | [_] => exact absurd rfl complete
  | letter :: slot :: rest =>
      simp only [respond, List.cons_append] at complete ⊢
      split
      next => rfl
      next load =>
        rw [if_neg load] at complete
        split
        next save =>
          have enough : blockSize ≤ rest.length := Nat.le_of_not_lt fun short =>
            complete (by rw [if_pos save, if_neg (Nat.not_le.mpr short)])
          rw [if_pos enough, if_pos (by rw [List.length_append]; omega),
            List.take_append_of_le_length enough, List.drop_append_of_le_length enough]
          rfl
        next => rfl

/-- What lacks some bytes of a whole request is not complete. -/
theorem respond_part {slots reached : S} {part rest answer : List Code}
    (whole : respond blockSize slots (part ++ rest) = .answered answer [] reached)
    (lacking : rest ≠ []) : respond blockSize slots part = .incomplete := by
  refine Classical.byContradiction fun complete => ?_
  rw [respond_append rest complete] at whole
  cases response : respond blockSize slots part with
  | incomplete => exact complete response
  | unknown answer =>
      rw [response] at whole
      cases whole
  | answered answer remaining slots =>
      rw [response] at whole
      injection whole with _ none _
      exact lacking (List.append_eq_nil_iff.mp none).2

/-- An answered request is used up. -/
theorem length_lt_of_respond {slots reached : S} {pending answer rest : List Code}
    (answered : respond blockSize slots pending = .answered answer rest reached) :
    rest.length < pending.length := by
  match pending with
  | [] | [_] => cases answered
  | letter :: slot :: body =>
      simp only [respond] at answered
      split at answered
      · cases answered
        simp only [List.length_cons]
        omega
      · split at answered
        · split at answered
          · cases answered
            simp only [List.length_drop, List.length_cons]
            omega
          · cases answered
        · cases answered

/-! ## All requests that are there -/

/-- One turn for every pending byte is enough to answer what can be answered. -/
theorem work_enough {turns : Nat} {session : Session S}
    (enough : session.pending.length ≤ turns) :
    work blockSize turns session = work blockSize session.pending.length session := by
  induction turns using Nat.strongRecOn generalizing session with
  | ind turns ih =>
      cases turns with
      | zero => rw [Nat.le_zero.mp enough]
      | succ turns =>
          cases size : session.pending.length with
          | zero => simp [work, List.length_eq_zero_iff.mp size, respond]
          | succ others =>
              simp only [work]
              split
              · rfl
              · cases response : respond blockSize session.slots session.pending with
                | incomplete => rfl
                | unknown answer => rfl
                | answered answer rest slots =>
                    have shorter := length_lt_of_respond response
                    simp only
                    rw [ih turns (by omega) (by simp only; omega),
                      ← ih others (by omega) (by simp only; omega)]

/-- Answers what can be answered of the bytes that have come in. -/
def settle (blockSize : Nat) (session : Session S) : Session S :=
  work blockSize session.pending.length session

section
variable {sent pending rest answer : List Code} {slots reached : S} {stopped : Bool}

theorem feed_eq_settle (bytes : List Code) :
    feed blockSize bytes ⟨sent, pending, slots, stopped⟩ =
      settle blockSize ⟨sent, pending ++ bytes, slots, stopped⟩ := rfl

theorem settle_stopped :
    settle blockSize ⟨sent, pending, slots, true⟩ = ⟨sent, pending, slots, true⟩ := by
  unfold settle
  cases pending <;> simp [work]

theorem settle_incomplete (response : respond blockSize slots pending = .incomplete) :
    settle blockSize ⟨sent, pending, slots, stopped⟩ = ⟨sent, pending, slots, stopped⟩ := by
  unfold settle
  cases pending <;> simp [work, response]

theorem settle_unknown (response : respond blockSize slots pending = .unknown answer) :
    settle blockSize ⟨sent, pending, slots, false⟩ =
      ⟨sent ++ answer, pending, slots, true⟩ := by
  unfold settle
  cases pending with
  | nil => cases response
  | cons first others => simp [work, response]

theorem settle_answered
    (response : respond blockSize slots pending = .answered answer rest reached) :
    settle blockSize ⟨sent, pending, slots, false⟩ =
      settle blockSize ⟨sent ++ answer, rest, reached, false⟩ := by
  have shorter := length_lt_of_respond response
  unfold settle
  cases pending with
  | nil => cases response
  | cons first others =>
      simp only [List.length_cons, work, response]
      exact work_enough (Nat.le_of_lt_succ shorter)

/-- A controller that has settled takes later bytes as if they had come in at once. -/
theorem feed_settle (later : List Code) :
    feed blockSize later (settle blockSize ⟨sent, pending, slots, stopped⟩) =
      settle blockSize ⟨sent, pending ++ later, slots, stopped⟩ := by
  -- Each answered request leaves fewer pending bytes.
  induction size : pending.length using Nat.strongRecOn generalizing sent pending slots with
  | ind size ih =>
      cases stopped with
      | true => rw [settle_stopped, feed_eq_settle]
      | false =>
          have whole (complete : respond blockSize slots pending ≠ .incomplete) :=
            respond_append later complete
          cases response : respond blockSize slots pending with
          | incomplete => rw [settle_incomplete response, feed_eq_settle]
          | unknown answer =>
              rw [response] at whole
              rw [settle_unknown response, feed_eq_settle, settle_stopped,
                settle_unknown (whole (by simp))]
          | answered answer rest reached =>
              have shorter := length_lt_of_respond response
              rw [response] at whole
              rw [settle_answered response, ih rest.length (size ▸ shorter) rfl,
                settle_answered (whole (by simp))]

end

/-- It makes no difference how the bytes are cut that come in. -/
theorem feed_append (first later : List Code) (session : Session S) :
    feed blockSize (first ++ later) session =
      feed blockSize later (feed blockSize first session) := by
  rcases session with ⟨sent, pending, slots, stopped⟩
  rw [feed_eq_settle first, feed_settle, feed_eq_settle, List.append_assoc]

/-! ## From one request to the next -/

/-- A service between two requests: nothing is pending, and it has sent so much. -/
def between (sent : List Code) (slots : S) : Session S :=
  ⟨sent, [], slots, false⟩

/-- A part of a request is kept until the rest of it comes in. -/
theorem feed_part {sent part : List Code} {slots : S}
    (response : respond blockSize slots part = .incomplete) :
    feed blockSize part (between sent slots) = ⟨sent, part, slots, false⟩ :=
  settle_incomplete response

/-- A request that is answered with nothing left ends between two requests. -/
theorem feed_request {sent frame answer : List Code} {slots reached : S}
    (response : respond blockSize slots frame = .answered answer [] reached) :
    feed blockSize frame (between sent slots) = between (sent ++ answer) reached :=
  (settle_answered response).trans (settle_incomplete rfl)

variable (blockSize) (slot : Code) (slots : S)

/-- A request for a block is complete with its slot number. -/
theorem respond_loadFrame :
    respond blockSize slots (Link.loadFrame slot.toNat) =
      .answered (answerLoad blockSize slot.toNat slots).1 []
        (answerLoad blockSize slot.toNat slots).2 := by
  simp [Link.loadFrame, respond]

/-- A request that brings a block is complete with the last byte of the block. -/
theorem respond_saveFrame {block : List Code} (fits : block.length = blockSize) :
    respond blockSize slots (Link.saveFrame slot.toNat block) =
      .answered (answerSave slot.toNat block slots).1 [] (answerSave slot.toNat block slots).2 := by
  have other : Link.saveLetter ≠ Link.loadLetter := by decide
  simp [Link.saveFrame, respond, other, ← fits]

end Controller
end HomeBasic
