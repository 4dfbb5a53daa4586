import HomeBasic.Slot.Link

/-!
# The controller of a link

The controller answers the requests that come in over a link out of a store of
its own. A request is answered once all of it is there; a request that the
controller does not know is refused and ends the service.
-/

namespace HomeBasic
namespace Controller

variable {S : Type} [SlotStore S]

/-- What comes of the bytes that have come in. -/
inductive Response (S : Type)
  /-- A request is not complete yet. -/
  | incomplete
  /-- A request was answered; some bytes are left. -/
  | answered (answer rest : List Code) (slots : S)
  /-- The request is not known. -/
  | unknown (answer : List Code)

/-- Answers a request for a block. -/
def answerLoad (blockSize slot : Nat) (slots : S) : List Code × S :=
  match SlotStore.read slot slots with
  | (.ok block, slots) =>
      if block.length = blockSize then (Link.granted :: block, slots)
      else ([Link.refused], slots)
  | (.error _, slots) => ([Link.refused], slots)

/-- Answers a request that brings a block. -/
def answerSave (slot : Nat) (block : List Code) (slots : S) : List Code × S :=
  match SlotStore.persist slot block slots with
  | (.ok (), slots) => ([Link.granted], slots)
  | (.error _, slots) => ([Link.refused], slots)

/-- Answers the first request of the bytes that have come in. -/
def respond (blockSize : Nat) (slots : S) : List Code → Response S
  | letter :: slot :: rest =>
      if letter = Link.loadLetter then
        let (answer, slots) := answerLoad blockSize slot.toNat slots
        .answered answer rest slots
      else if letter = Link.saveLetter then
        if blockSize ≤ rest.length then
          let (answer, slots) := answerSave slot.toNat (rest.take blockSize) slots
          .answered answer (rest.drop blockSize) slots
        else
          .incomplete
      else
        .unknown [Link.refused]
  | _ => .incomplete

/-- How a service stands: what it sent, what it has not answered yet, and whether it goes on. -/
structure Session (S : Type) where
  sent : List Code
  pending : List Code
  slots : S
  stopped : Bool

/-- Answers at most so many of the requests that have come in. -/
def work (blockSize : Nat) : (requests : Nat) → Session S → Session S
  | 0, session => session
  | requests + 1, session =>
      if session.stopped then
        session
      else
        match respond blockSize session.slots session.pending with
        | .incomplete => session
        | .answered answer rest slots =>
            work blockSize requests
              { session with sent := session.sent ++ answer, pending := rest, slots }
        | .unknown answer =>
            { session with sent := session.sent ++ answer, stopped := true }

/-- Takes bytes in and answers all the requests that are complete. -/
def feed (blockSize : Nat) (bytes : List Code) (session : Session S) : Session S :=
  let pending := session.pending ++ bytes
  work blockSize pending.length { session with pending }

/-- A service that nothing has come in to yet. -/
def start (slots : S) : Session S :=
  ⟨[], [], slots, false⟩

/-- How a service ends when the other end hangs up: well, if no request is left half sent. -/
def outcome (session : Session S) : Except SlotFault Unit :=
  if session.stopped then .error .unknownRequest
  else if session.pending.isEmpty then .ok ()
  else .error .shortRead

/-- Answers everything that comes in up to the end of the link. -/
def serve (blockSize : Nat) (input : List Code) (slots : S) :
    Except SlotFault Unit × Session S :=
  let session := feed blockSize input (start slots)
  (outcome session, session)

end Controller

/-- The client's end of a link that a controller serves at the other end. -/
structure ServedWire (S : Type) where
  blockSize : Nat
  session : Controller.Session S

instance {S : Type} [SlotStore S] : Wire (ServedWire S) where
  send bytes wire :=
    { wire with session := Controller.feed wire.blockSize bytes wire.session }
  receive count wire :=
    (wire.session.sent.take count,
      { wire with session := { wire.session with sent := wire.session.sent.drop count } })

end HomeBasic
