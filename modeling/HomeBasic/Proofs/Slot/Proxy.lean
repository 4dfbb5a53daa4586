import HomeBasic.Proofs.Slot.Controller

/-!
# A link stands for the store at its other end

The client and the controller read the same unframed bytes with two parsers of their own,
and the link between them may deliver what the client sends in pieces and at any time.
`Lossless` says no more of it than that every byte comes in, once and in order, and that
an answer falls short only when nothing is under way any more.

Between two calls the two ends are in step: nothing is under way, nothing is pending at
the controller, and no answer is left unread. Every call keeps them in step, also one that
is refused, so the answers of all calls are those of the store itself.

Main statements: a call over a link that is in step answers as the store does and leaves the
link in step (`InStep.make`), and so does every sequence of calls (`Lossless.proxies_store`).
-/

namespace HomeBasic

/-! ## Calls -/

/-- A call that a client makes on a store. -/
inductive SlotCall
  | read (slot : Code)
  | persist (slot : Code) (block : List Code)

/-- What a call came to. -/
inductive SlotReply
  | block (result : Except SlotFault (List Code))
  | kept (result : Except SlotFault Unit)

namespace SlotCall

variable {S : Type} [SlotStore S]

/-- Makes a call on a store. -/
def make : SlotCall → S → SlotReply × S
  | .read slot, slots =>
      let (result, reached) := SlotStore.read slot.toNat slots
      (.block result, reached)
  | .persist slot block, slots =>
      let (result, reached) := SlotStore.persist slot.toNat block slots
      (.kept result, reached)

/-- The call brings a block of another size. -/
def Misfit (blockSize : Nat) : SlotCall → Prop
  | .read _ => False
  | .persist _ block => block.length ≠ blockSize

instance (blockSize : Nat) (call : SlotCall) : Decidable (call.Misfit blockSize) :=
  match call with
  | .read _ => instDecidableFalse
  | .persist _ _ => instDecidableNot

/-- What the other end of a link learns of a reply: a block of the right size or that there
is none, that a block was kept or that it was not. -/
def relayed (blockSize : Nat) : SlotCall → SlotReply → SlotReply
  | .read slot, .block (.ok block) =>
      if block.length = blockSize then .block (.ok block)
      else .block (.error (.empty slot.toNat))
  | .read slot, _ => .block (.error (.empty slot.toNat))
  | .persist _ _, .kept (.ok ()) => .kept (.ok ())
  | .persist _ _, _ => .kept (.error .saveRefused)

/-- Makes a call on a store that is reached by blocks of one size. -/
def proxied (blockSize : Nat) (call : SlotCall) (slots : S) : SlotReply × S :=
  if call.Misfit blockSize then
    (.kept (.error .corrupt), slots)
  else
    let (reply, reached) := call.make slots
    (call.relayed blockSize reply, reached)

theorem proxied_of_fit {blockSize : Nat} {call : SlotCall} (fit : ¬call.Misfit blockSize)
    (slots : S) :
    call.proxied blockSize slots =
      (call.relayed blockSize (call.make slots).1, (call.make slots).2) :=
  if_neg fit

/-- Makes one call after another; yields the replies and the store that is reached. -/
def run (perform : SlotCall → S → SlotReply × S) : List SlotCall → S → List SlotReply × S
  | [], slots => ([], slots)
  | call :: calls, slots =>
      let (reply, reached) := perform call slots
      let (replies, last) := run perform calls reached
      (reply :: replies, last)

end SlotCall

/-! ## Links -/

/-- A link and its controller: the bytes that are under way to the controller, the size of
the blocks that it takes, and how its service stands. -/
structure Transit (S : Type) where
  underway : List Code
  blockSize : Nat
  session : Controller.Session S

namespace Transit

variable {S : Type}

/-- Nothing is under way or pending, some bytes of an answer are unread, and the service
goes on. -/
def settled (blockSize : Nat) (unread : List Code) (slots : S) : Transit S :=
  ⟨[], blockSize, Controller.between unread slots⟩

/-- Nothing is under way, pending or unread, and the service goes on. -/
def idle (blockSize : Nat) (slots : S) : Transit S :=
  settled blockSize [] slots

/-- The client puts bytes on the way. -/
def sent (bytes : List Code) (transit : Transit S) : Transit S :=
  { transit with underway := transit.underway ++ bytes }

/-- The client takes some of the bytes that the controller has sent. -/
def taken (count : Nat) (transit : Transit S) : Transit S :=
  { transit with session := { transit.session with sent := transit.session.sent.drop count } }

variable [SlotStore S]

/-- Some of the bytes that are under way come in, in their order, or none. -/
inductive Delivers : Transit S → Transit S → Prop
  | none (transit : Transit S) : Delivers transit transit
  | some (front rest : List Code) (blockSize : Nat) (session : Controller.Session S) :
      Delivers ⟨front ++ rest, blockSize, session⟩
        ⟨rest, blockSize, Controller.feed blockSize front session⟩

variable {blockSize : Nat} {slots : S} {before after : Transit S}

/-- However the bytes are cut that come in, the controller has taken a front of them all. -/
theorem Delivers.fed {first underway : List Code} {session : Controller.Session S}
    (delivers : Delivers before after)
    (start : before = ⟨underway, blockSize, Controller.feed blockSize first session⟩) :
    ∃ front rest, underway = front ++ rest ∧
      after = ⟨rest, blockSize, Controller.feed blockSize (first ++ front) session⟩ := by
  cases delivers with
  | none => exact ⟨[], underway, rfl, by rw [start, List.append_nil]⟩
  | some front rest size reached =>
      cases start
      exact ⟨front, rest, rfl, by rw [Controller.feed_append]⟩

/-- Nothing comes in when nothing is under way. -/
theorem Delivers.eq_of_settled {unread : List Code} (delivers : Delivers before after)
    (start : before = settled blockSize unread slots) :
    after = settled blockSize unread slots := by
  have start : before = ⟨[], blockSize,
      Controller.feed blockSize [] (Controller.between unread slots)⟩ := start
  obtain ⟨front, rest, cut, rfl⟩ := delivers.fed start
  obtain ⟨rfl, rfl⟩ := List.append_eq_nil_iff.mp cut.symm
  rfl

end Transit

/-- A wire that loses nothing on its way to a controller and back. Bytes may come in when
they are sent, and before and after an answer is taken; an answer falls short only when
the controller has everything. -/
structure Lossless {W S : Type} [Wire W] [SlotStore S] (transit : W → Transit S) : Prop where
  send : ∀ bytes wire, ((transit wire).sent bytes).Delivers (transit (Wire.send bytes wire))
  receive : ∀ count wire, ∃ reached, (transit wire).Delivers reached ∧
    (Wire.receive count wire).1 = reached.session.sent.take count ∧
    (reached.session.sent.length < count → reached.underway = []) ∧
    (reached.taken count).Delivers (transit (Wire.receive count wire).2)

/-- What a wire has on the way that takes every byte to its controller at once. -/
def ServedWire.transit {S : Type} (wire : ServedWire S) : Transit S :=
  ⟨[], wire.blockSize, wire.session⟩

/-- A wire that takes every byte to its controller at once is lossless. -/
theorem ServedWire.lossless {S : Type} [SlotStore S] :
    Lossless (transit : ServedWire S → Transit S) where
  send bytes wire := by
    have comes := Transit.Delivers.some bytes [] wire.blockSize wire.session
    rwa [List.append_nil] at comes
  receive count wire := ⟨wire.transit, .none _, rfl, fun _ => rfl, .none _⟩

namespace Lossless

variable {W S : Type} [Wire W] [SlotStore S] {transit : W → Transit S} {blockSize : Nat}
  {wire : W} {slots reached : S}

/-- Unread bytes of an answer are taken one after another. -/
theorem receive_settled (lossless : Lossless transit) {unread : List Code} (count : Nat)
    (start : transit wire = .settled blockSize unread slots) :
    (Wire.receive count wire).1 = unread.take count ∧
      transit (Wire.receive count wire).2 = .settled blockSize (unread.drop count) slots := by
  obtain ⟨middle, before, result, -, after⟩ := lossless.receive count wire
  obtain rfl := before.eq_of_settled start
  exact ⟨result, after.eq_of_settled rfl⟩

/-- The first byte that comes back after a request is the first of its answer, and only the
rest of the answer is left then. -/
theorem exchange (lossless : Lossless transit) {frame rest : List Code} {first : Code}
    (start : transit wire = .idle blockSize slots)
    (response : Controller.respond blockSize slots frame = .answered (first :: rest) [] reached) :
    (Wire.receive 1 (Wire.send frame wire)).1 = [first] ∧
      transit (Wire.receive 1 (Wire.send frame wire)).2 = .settled blockSize rest reached := by
  have sending := lossless.send frame wire
  obtain ⟨middle, before, result, short, after⟩ := lossless.receive 1 (Wire.send frame wire)
  have opened : Transit.sent frame (transit wire) = ⟨frame, blockSize,
      Controller.feed blockSize [] (Controller.between [] slots)⟩ := by
    rw [start]
    rfl
  obtain ⟨sooner, remaining, cut, sent⟩ := sending.fed opened
  obtain ⟨later, lacking, cutAgain, rfl⟩ := before.fed sent
  simp only [List.nil_append] at *
  have whole : frame = (sooner ++ later) ++ lacking := by
    rw [cut, cutAgain, List.append_assoc]
  -- As long as the request is not whole there is no answer, but then bytes are under way.
  have arrived : lacking = [] := Classical.byContradiction fun some => some <| short <| by
    rw [Controller.feed_part (Controller.respond_part (whole ▸ response) some)]
    exact Nat.zero_lt_one
  subst arrived
  rw [List.append_nil] at whole
  rw [← whole, Controller.feed_request response] at result after
  exact ⟨result, after.eq_of_settled rfl⟩

end Lossless

/-! ## Calls over a link -/

/-- The two ends of a link are between two calls: they take blocks of one size, and no byte
is left in either direction. -/
structure InStep {W S : Type} (transit : W → Transit S) (blockSize : Nat) (link : LinkSlots W)
    (slots : S) : Prop where
  blockSize_eq : link.blockSize = blockSize
  idle : transit link.wire = .idle blockSize slots

namespace InStep

variable {W S : Type} [Wire W] [SlotStore S] {transit : W → Transit S} {blockSize : Nat}
  {link : LinkSlots W} {slots reached : S}

/-- A request is granted or refused as the controller answers it, and only the block of the
answer is left then. -/
theorem request (inStep : InStep transit blockSize link slots) (lossless : Lossless transit)
    {frame rest : List Code} (granted : Bool)
    (response : Controller.respond blockSize slots frame =
      .answered ((if granted then Link.granted else Link.refused) :: rest) [] reached) :
    ∃ wire, link.request frame = (.ok granted, { link with wire }) ∧
      transit wire = .settled blockSize rest reached := by
  obtain ⟨answer, left⟩ := lossless.exchange inStep.idle response
  refine ⟨_, ?_, left⟩
  have other : Link.refused ≠ Link.granted := by decide
  cases granted <;> simp [LinkSlots.request, LinkSlots.receive, answer, other]

/-- A refused request for a block finds the slot empty. -/
theorem read_of_refused (inStep : InStep transit blockSize link slots)
    (lossless : Lossless transit) {slot : Code}
    (answer : Controller.answerLoad blockSize slot.toNat slots = ([Link.refused], reached)) :
    ∃ wire, link.read slot.toNat = (.error (.empty slot.toNat), { link with wire }) ∧
      transit wire = .idle blockSize reached := by
  have response := Controller.respond_loadFrame blockSize slot slots
  rw [answer] at response
  obtain ⟨wire, asked, left⟩ := inStep.request lossless false response
  exact ⟨wire, by rw [LinkSlots.read, asked], left⟩

/-- A granted request for a block takes the whole block from the link. -/
theorem read_of_granted (inStep : InStep transit blockSize link slots)
    (lossless : Lossless transit) {slot : Code} {block : List Code}
    (fits : block.length = blockSize)
    (answer : Controller.answerLoad blockSize slot.toNat slots =
      (Link.granted :: block, reached)) :
    ∃ wire, link.read slot.toNat = (.ok block, { link with wire }) ∧
      transit wire = .idle blockSize reached := by
  have response := Controller.respond_loadFrame blockSize slot slots
  rw [answer] at response
  obtain ⟨wire, asked, left⟩ := inStep.request lossless true response
  obtain ⟨taken, done⟩ := lossless.receive_settled blockSize left
  refine ⟨(Wire.receive blockSize wire).2, ?_, ?_⟩
  · rw [LinkSlots.read, asked]
    simp only [LinkSlots.receive, inStep.blockSize_eq, taken]
    rw [← fits, List.take_length, if_pos rfl]
  · rw [done, ← fits, List.drop_length]
    rfl

theorem make_read (inStep : InStep transit blockSize link slots) (lossless : Lossless transit)
    (slot : Code) :
    ((SlotCall.read slot).make link).1 = ((SlotCall.read slot).proxied blockSize slots).1 ∧
      InStep transit blockSize ((SlotCall.read slot).make link).2
        ((SlotCall.read slot).proxied blockSize slots).2 := by
  have asked (outcome : Except SlotFault (List Code)) (reached : S)
      (ended : ∃ wire, link.read slot.toNat = (outcome, { link with wire }) ∧
        transit wire = .idle blockSize reached) :
      ((SlotCall.read slot).make link).1 = .block outcome ∧
        InStep transit blockSize ((SlotCall.read slot).make link).2 reached := by
    obtain ⟨wire, read, left⟩ := ended
    have made : (SlotCall.read slot).make link = (.block outcome, { link with wire }) := by
      change (SlotReply.block (link.read slot.toNat).1, (link.read slot.toNat).2) = _
      rw [read]
    rw [made]
    exact ⟨rfl, inStep.blockSize_eq, left⟩
  rw [SlotCall.proxied_of_fit id]
  rcases stored : SlotStore.read slot.toNat slots with ⟨fault | block, reached⟩
  · have answer : Controller.answerLoad blockSize slot.toNat slots =
        ([Link.refused], reached) := by rw [Controller.answerLoad, stored]
    simp only [SlotCall.make, stored]
    exact asked _ _ (inStep.read_of_refused lossless answer)
  · by_cases fits : block.length = blockSize
    · have answer : Controller.answerLoad blockSize slot.toNat slots =
          (Link.granted :: block, reached) := by simp [Controller.answerLoad, stored, fits]
      simp only [SlotCall.make, stored, SlotCall.relayed, if_pos fits]
      exact asked _ _ (inStep.read_of_granted lossless fits answer)
    · have answer : Controller.answerLoad blockSize slot.toNat slots =
          ([Link.refused], reached) := by simp [Controller.answerLoad, stored, fits]
      simp only [SlotCall.make, stored, SlotCall.relayed, if_neg fits]
      exact asked _ _ (inStep.read_of_refused lossless answer)

omit [SlotStore S] in
/-- A block of another size is not sent. -/
theorem make_misfit (inStep : InStep transit blockSize link slots) {call : SlotCall}
    (misfit : call.Misfit blockSize) : call.make link = (.kept (.error .corrupt), link) := by
  cases call with
  | read slot => exact misfit.elim
  | persist slot block =>
      have other : block.length ≠ link.blockSize := by
        rw [inStep.blockSize_eq]
        exact misfit
      have kept : SlotStore.persist slot.toNat block link = (.error .corrupt, link) := if_pos other
      rw [SlotCall.make, kept]

theorem make_persist (inStep : InStep transit blockSize link slots)
    (lossless : Lossless transit) (slot : Code) {block : List Code}
    (fits : block.length = blockSize) :
    ((SlotCall.persist slot block).make link).1 =
        ((SlotCall.persist slot block).proxied blockSize slots).1 ∧
      InStep transit blockSize ((SlotCall.persist slot block).make link).2
        ((SlotCall.persist slot block).proxied blockSize slots).2 := by
  have response := Controller.respond_saveFrame blockSize slot slots fits
  have whole : ¬block.length ≠ link.blockSize := by rw [inStep.blockSize_eq, fits]; simp
  have fit : ¬(SlotCall.persist slot block).Misfit blockSize := not_not_intro fits
  rw [SlotCall.proxied_of_fit fit, SlotCall.make, SlotCall.make]
  rcases stored : SlotStore.persist slot.toNat block slots with ⟨fault | ⟨⟩, reached⟩
  · rw [Controller.answerSave, stored] at response
    obtain ⟨wire, asked, left⟩ := inStep.request lossless false response
    have kept : SlotStore.persist slot.toNat block link =
        (.error .saveRefused, { link with wire }) :=
      (if_neg whole).trans (by rw [asked])
    rw [kept]
    exact ⟨rfl, inStep.blockSize_eq, left⟩
  · rw [Controller.answerSave, stored] at response
    obtain ⟨wire, asked, left⟩ := inStep.request lossless true response
    have kept : SlotStore.persist slot.toNat block link = (.ok (), { link with wire }) :=
      (if_neg whole).trans (by rw [asked])
    rw [kept]
    exact ⟨rfl, inStep.blockSize_eq, left⟩

/-- A call over a link in step answers as the store at its other end, which is changed as
by the same call, and leaves the link in step. -/
theorem make (inStep : InStep transit blockSize link slots) (lossless : Lossless transit)
    (call : SlotCall) :
    (call.make link).1 = (call.proxied blockSize slots).1 ∧
      InStep transit blockSize (call.make link).2 (call.proxied blockSize slots).2 := by
  by_cases misfit : call.Misfit blockSize
  · rw [inStep.make_misfit misfit, SlotCall.proxied, if_pos misfit]
    exact ⟨rfl, inStep⟩
  · cases call with
    | read slot => exact inStep.make_read lossless slot
    | persist slot block => exact inStep.make_persist lossless slot (Classical.not_not.mp misfit)

/-- A sequence of calls over a link in step is answered as by the store at its other end,
which is changed as by the same calls. -/
theorem run (inStep : InStep transit blockSize link slots) (lossless : Lossless transit)
    (calls : List SlotCall) :
    (SlotCall.run SlotCall.make calls link).1 =
        (SlotCall.run (SlotCall.proxied blockSize) calls slots).1 ∧
      InStep transit blockSize (SlotCall.run SlotCall.make calls link).2
        (SlotCall.run (SlotCall.proxied blockSize) calls slots).2 := by
  induction calls generalizing link slots with
  | nil => exact ⟨rfl, inStep⟩
  | cons call calls ih =>
      obtain ⟨reply, after⟩ := inStep.make lossless call
      obtain ⟨replies, last⟩ := ih after
      exact ⟨List.cons_eq_cons.mpr ⟨reply, replies⟩, last⟩

end InStep

/-- A link over a lossless wire stands for the store at its other end. Whatever calls are
made, they are answered as by the store, which is changed as by the same calls. Before and
after each of them no byte is left in either direction, and a block of another size is
refused with nothing sent. -/
theorem Lossless.proxies_store {W S : Type} [Wire W] [SlotStore S] {transit : W → Transit S}
    (lossless : Lossless transit) {blockSize : Nat} {link : LinkSlots W} {slots : S}
    (inStep : InStep transit blockSize link slots) (calls : List SlotCall) :
    (SlotCall.run SlotCall.make calls link).1 =
        (SlotCall.run (SlotCall.proxied blockSize) calls slots).1 ∧
      ∀ count,
        InStep transit blockSize (SlotCall.run SlotCall.make (calls.take count) link).2
          (SlotCall.run (SlotCall.proxied blockSize) (calls.take count) slots).2 ∧
        ∀ call : SlotCall, call.Misfit blockSize →
          call.make (SlotCall.run SlotCall.make (calls.take count) link).2 =
            (.kept (.error .corrupt), (SlotCall.run SlotCall.make (calls.take count) link).2) := by
  refine ⟨(inStep.run lossless calls).1, fun count => ?_⟩
  have reached := (inStep.run lossless (calls.take count)).2
  exact ⟨reached, fun call misfit => reached.make_misfit misfit⟩

/-- Three slots at the other end of a link: a block is kept and read back, the others are
empty, and a number that no slot has and a block of another size are refused. -/
theorem Lossless.proxies_three_slots :
    (SlotCall.run SlotCall.make
      [.persist 1 [4, 5], .read 1, .read 2, .persist 7 [8, 9], .persist 2 [6], .read 1]
      (⟨⟨2, Controller.start (MemorySlots.empty 3)⟩, 4, 2⟩ : LinkSlots (ServedWire MemorySlots))).1 =
      [.kept (.ok ()), .block (.ok [4, 5]), .block (.error (.empty 2)),
        .kept (.error .saveRefused), .kept (.error .corrupt), .block (.ok [4, 5])] :=
  (ServedWire.lossless.proxies_store ⟨rfl, rfl⟩ _).1.trans
    rfl

end HomeBasic
