import HomeBasic.Slot.Link

/-!
# Slots on a web server

The requests of a link, each in the body of a post of its own; the body of the
answer is what the link would send.
-/

namespace HomeBasic

/-- Slots on a web server whose answers are known beforehand, and which keeps what is posted. -/
structure WebSlots where
  count : Nat
  blockSize : Nat
  /-- A status and a body for each post to come. -/
  answers : List (Nat × List Code)
  /-- The bodies that were posted, the first one first. -/
  posted : List (List Code)
  deriving DecidableEq, Repr

namespace WebSlots

/-- The line that opens each request. -/
def requestLine : String := "POST /slots HTTP/1.1"

/-- Posts a body; yields the body of the answer, unless its status is one of an error. -/
def post (body : List Code) (slots : WebSlots) : Except SlotFault (List Code) × WebSlots :=
  let (status, answer) := slots.answers.headD (503, [])
  let slots := { slots with answers := slots.answers.tail, posted := slots.posted ++ [body] }
  (if status < 400 then .ok answer else .error (.status status), slots)

/-- The block in the answer to a request for one. -/
def blockOf (blockSize slot : Nat) : List Code → Except SlotFault (List Code)
  | [] => .error .unexpectedReply
  | first :: block =>
      if first = Link.granted ∧ block.length = blockSize then .ok block
      else if first = Link.refused then .error (.empty slot)
      else .error .unexpectedReply

/-- What the answer to a request that brings a block says. -/
def acceptance (answer : List Code) : Except SlotFault Unit :=
  if answer = [Link.granted] then .ok ()
  else if answer = [Link.refused] then .error .saveRefused
  else .error .unexpectedReply

instance : SlotStore WebSlots where
  slotCount slots := slots.count
  read slot slots :=
    let (answer, slots) := slots.post (Link.loadFrame slot)
    (answer >>= blockOf slots.blockSize slot, slots)
  persist slot block slots :=
    let (answer, slots) := slots.post (Link.saveFrame slot block)
    (answer >>= acceptance, slots)

end WebSlots
end HomeBasic
